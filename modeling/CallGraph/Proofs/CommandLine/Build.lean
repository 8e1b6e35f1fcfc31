import CallGraph.CommandLine.Run
import CallGraph.Proofs.Artifacts.Agreement
import CallGraph.Proofs.Looking
import CallGraph.Proofs.Trees.Directories

/-!
# A build is all or nothing

A build first finds its table and where the artifacts go, and up to there it only looks.  It writes
when the table has been found sound, and then nothing is left to fail but the writing itself.
-/

namespace CallGraph

/-! ## What writing changes -/

namespace Tree

variable {tree after : Tree} {path : Path} {bytes : ByteArray}

/-- Writing a file changes nothing but what stands where its path leads. -/
theorem exists_walk_of_write (written : write path bytes tree = .ok () after) :
    ∃ spot, after.walk .strict path = .ok spot ∧
      ∀ place, place ≠ spot → after.get? place = tree.get? place := by
  obtain ⟨spot, arrives, noDirectory, rfl⟩ := write_eq_ok_iff.mp written
  have vacant := Vacant.of_walk arrives noDirectory
  exact ⟨spot, walk_put vacant bytes arrives (.inl rfl), fun place different =>
    vacant.get?_put_of_ne bytes different⟩

end Tree

namespace Artifact

/-- The names of the artifacts. -/
def names : List String := [tableFile, symbolsFile, summaryFile]

/-- How a tree changes when the artifacts of a table are written to a directory. -/
structure Written (tree after : Tree) (directory : Path) (table : Table) : Prop where
  /-- The path of every artifact leads somewhere. -/
  leads : ∀ name ∈ names, ∃ place, after.walk .strict (directory.child name) = .ok place
  /-- Everything stays as it is but where the paths of the artifacts lead, apart from directories
  that are made, where nothing stood, on the way to the directory. -/
  others : ∀ place, (∀ name ∈ names, after.walk .strict (directory.child name) ≠ .ok place) →
    after.get? place = tree.get? place ∨
      tree.get? place = none ∧ after.get? place = some .directory ∧ after.OnWay directory place
  /-- The summary, which is written last, is there in any case. -/
  summary : after.read (directory.child summaryFile) = .ok (Text.encode table.summaryText)
  /-- Unless links lead two of the paths to one place, the files are those of the table. -/
  stored : (names.map fun name => after.walk .strict (directory.child name)).Nodup →
    Stored after directory table

theorem Written.of_writeArtifacts {table : Table} {directory : Path} {before after : Workspace}
    (written : writeArtifacts table directory before = .ok () after) :
    Written before.tree after.tree directory table := by
  have stored := Stored.of_writeArtifacts written
  obtain ⟨_, made, required, written⟩ := Work.bind_eq_ok_iff.mp written
  obtain ⟨_, tabled, first, written⟩ := Work.bind_eq_ok_iff.mp written
  obtain ⟨_, listed, second, third⟩ := Work.bind_eq_ok_iff.mp written
  obtain ⟨added, way⟩ := Tree.MakesWay.of_requireNames (Work.change_eq_ok_iff.mp required).1
  rw [List.reverse_reverse] at way
  replace first := (Work.change_eq_ok_iff.mp first).1
  replace second := (Work.change_eq_ok_iff.mp second).1
  replace third := (Work.change_eq_ok_iff.mp third).1
  obtain ⟨tableSpot, tableLeads, tableOthers⟩ := Tree.exists_walk_of_write first
  obtain ⟨symbolsSpot, symbolsLeads, symbolsOthers⟩ := Tree.exists_walk_of_write second
  obtain ⟨summarySpot, summaryLeads, summaryOthers⟩ := Tree.exists_walk_of_write third
  -- the paths that were written first lead to the same places at the end
  obtain ⟨_, tableRead, -⟩ := Tree.exists_read_of_write second (Tree.read_of_write first)
  rw [← Tree.walk_of_write second (Tree.read_of_write first),
    ← Tree.walk_of_write third tableRead] at tableLeads
  rw [← Tree.walk_of_write third (Tree.read_of_write second)] at symbolsLeads
  refine ⟨?_, fun place elsewhere => ?_, Tree.read_of_write third, stored⟩
  · simp only [names, List.forall_mem_cons, List.not_mem_nil, false_implies, implies_true, and_true]
    exact ⟨⟨_, tableLeads⟩, ⟨_, symbolsLeads⟩, ⟨_, summaryLeads⟩⟩
  · simp only [names, List.forall_mem_cons, List.not_mem_nil, false_implies, implies_true, and_true,
      tableLeads, symbolsLeads, summaryLeads, ne_eq, Except.ok.injEq, eq_comm (b := place)]
      at elsewhere
    obtain ⟨notTable, notSymbols, notSummary⟩ := elsewhere
    have same : after.tree.get? place = made.tree.get? place := by
      rw [summaryOthers place notSummary, symbolsOthers place notSymbols,
        tableOthers place notTable]
    rcases way.get?_cases place with unchanged | ⟨absent, stands, onWay⟩
    · exact .inl (same.trans unchanged)
    · -- the writing leaves a new directory, and the way to it, as they are
      obtain ⟨stands, onWay⟩ := Tree.onWay_of_write first stands onWay
      obtain ⟨stands, onWay⟩ := Tree.onWay_of_write second stands onWay
      exact .inr ⟨absent, Tree.onWay_of_write third stands onWay⟩

end Artifact

namespace CommandLine

open Work

variable {surroundings : Surroundings} {arguments : List String} {tree after : Tree}

/-! ## Looking first -/

/-- Where a build puts its artifacts. -/
def buildDirectory (surroundings : Surroundings) (root : Path) (directory : Option Value) :
    Work Path :=
  match directory with
  | some directory => surroundings.locate directory
  | none => do resolveOutputDir root (← Settings.load root).outputDir

/-- Where a build puts its artifacts, and the table that they are of. -/
def buildInputs (surroundings : Surroundings) (root : Value) (directory : Option Value) :
    Work (Path × Table) := do
  let root ← surroundings.locate root
  let settings ← Settings.load root
  let directory ← buildDirectory surroundings root directory
  let table ← buildProject root settings settings.outputDir
  return (directory, table)

/-- What a build does with its table. -/
def finishBuild (directory : Path) (table : Table) : Work Outcome := do
  let findings ← checkTable table
  if findings.isEmpty then
    writeArtifacts table directory
    return .fine
  else return .objections findings

theorem run_build (surroundings : Surroundings) (root : Value) (directory : Option Value) :
    run surroundings (.build root directory) =
      buildInputs surroundings root directory >>= fun inputs => finishBuild inputs.1 inputs.2 := by
  cases directory with
  | some directory =>
      simp only [run, runBuild, buildInputs, buildDirectory, bind_assoc, pure_bind]
      rfl
  | none =>
      simp only [run, runBuild, buildInputs, buildDirectory, bind_assoc, pure_bind]
      rfl

theorem looks_locate (surroundings : Surroundings) (argument : Value) :
    (surroundings.locate argument).Looks := by
  have demanded : argument.demand.Looks := by
    cases argument with
    | text given => exact looks_pure given
    | nothing => exact looks_throw _
  exact demanded.bind fun _ => (looks_demand _ _).bind fun _ => looks_resolve _

theorem looks_buildInputs (surroundings : Surroundings) (root : Value) (directory : Option Value) :
    (buildInputs surroundings root directory).Looks := by
  refine (looks_locate _ _).bind fun root => (looks_load root).bind fun settings => ?_
  refine Looks.bind ?_ fun _ => (looks_buildProject _ _ _ _).bind fun _ => looks_pure _
  cases directory with
  | some directory => exact looks_locate _ _
  | none => exact (looks_load root).bind fun _ => looks_resolveOutputDir _ _

/-! ## Writing last -/

theorem isSound_eq (table : Table) (artifact : String) :
    table.isSound = (table.findings artifact).isEmpty := by
  rw [Table.isSound, Table.findings, List.isEmpty_map]

/-- A build that comes to an end has written the artifacts of a sound table, or has objections to
its table and has written nothing. -/
theorem finishBuild_of_ok {directory : Path} {table : Table} {outcome : Outcome}
    {before after : Workspace} (ended : finishBuild directory table before = .ok outcome after) :
    outcome.exit = 0 ∧ table.isSound = true ∧
        Artifact.Written before.tree after.tree directory table ∨
      outcome.exit = 1 ∧ after.tree = before.tree := by
  obtain ⟨findings, checked, ⟨⟩, ended⟩ := bind_eq_ok_iff.mp ended
  split at ended
  · next empty =>
      obtain ⟨_, _, written, ended⟩ := bind_eq_ok_iff.mp ended
      obtain ⟨rfl, rfl⟩ := pure_eq_ok_iff.mp ended
      have stands := Artifact.Written.of_writeArtifacts written
      exact .inl ⟨rfl, (isSound_eq table "table").trans empty, stands⟩
  · obtain ⟨rfl, rfl⟩ := pure_eq_ok_iff.mp ended
    exact .inr ⟨rfl, rfl⟩

/-- Writing the artifacts of a table to a directory fails, and leaves a tree behind. -/
def WritingFails (tree after : Tree) (directory : Path) (table : Table) (failure : Failure) :
    Prop :=
  ∃ earlier later, writeArtifacts table directory ⟨tree, earlier⟩ = .error failure ⟨after, later⟩

/-- A failure of the writing is none of what the user has given. -/
theorem WritingFails.not_isTold {directory : Path} {table : Table} {failure : Failure}
    (fails : WritingFails tree after directory table failure) : isTold failure = false := by
  have unchanged {action : Tree.Action Unit} {before after : Workspace}
      (failed : change action before = .error failure after) : isTold failure = false := by
    unfold change at failed
    split at failed
    · cases failed
    · cases failed
      rfl
  obtain ⟨_, _, failed⟩ := fails
  rcases bind_eq_error_iff.mp failed with required | ⟨_, _, -, failed⟩
  · exact unchanged required
  rcases bind_eq_error_iff.mp failed with tabled | ⟨_, _, -, failed⟩
  · exact unchanged tabled
  rcases bind_eq_error_iff.mp failed with listed | ⟨_, _, -, summed⟩
  · exact unchanged listed
  · exact unchanged summed

/-- A build that has its table can fail in nothing but the writing. -/
theorem finishBuild_of_error {directory : Path} {table : Table} {failure : Failure}
    {before after : Workspace}
    (failed : finishBuild directory table before = .error failure after) :
    table.isSound = true ∧ WritingFails before.tree after.tree directory table failure := by
  rcases bind_eq_error_iff.mp failed with ⟨⟨⟩⟩ | ⟨findings, checked, ⟨⟩, failed⟩
  split at failed
  · next empty =>
      rcases bind_eq_error_iff.mp failed with unwritten | ⟨_, _, -, ⟨⟩⟩
      exact ⟨(isSound_eq table "table").trans empty, _, _, unwritten⟩
  · cases failed

/-! ## The whole build -/

section Run

variable {root : Value} {place : Option Value} {before finished : Workspace}

/-- A build that comes to an end has written the artifacts of its table, which is sound, or has
changed nothing. -/
theorem run_build_of_ok {outcome : Outcome}
    (ended : run surroundings (.build root place) before = .ok outcome finished) :
    (outcome.exit = 0 ∧ ∃ directory table,
        (buildInputs surroundings root place).outcome before.tree = .ok (directory, table) ∧
          table.isSound = true ∧ Artifact.Written before.tree finished.tree directory table) ∨
      outcome.exit = 1 ∧ finished.tree = before.tree := by
  rw [run_build] at ended
  obtain ⟨⟨directory, table⟩, middle, found, ended⟩ := bind_eq_ok_iff.mp ended
  obtain ⟨given, same⟩ := (looks_buildInputs surroundings root place).of_ok found
  rcases finishBuild_of_ok ended with ⟨well, sound, written⟩ | ⟨badly, unchanged⟩
  · rw [same] at written
    exact .inl ⟨well, directory, table, given, sound, written⟩
  · exact .inr ⟨badly, unchanged.trans same⟩

/-- A build that fails has changed nothing, or has failed in writing the artifacts of its table,
which is sound. -/
theorem run_build_of_error {failure : Failure}
    (failed : run surroundings (.build root place) before = .error failure finished) :
    finished.tree = before.tree ∨ ∃ directory table,
      (buildInputs surroundings root place).outcome before.tree = .ok (directory, table) ∧
        table.isSound = true ∧
          WritingFails before.tree finished.tree directory table failure := by
  rw [run_build] at failed
  rcases bind_eq_error_iff.mp failed with early | ⟨⟨directory, table⟩, middle, found, late⟩
  · exact .inl ((looks_buildInputs surroundings root place).of_error early).2
  · obtain ⟨given, same⟩ := (looks_buildInputs surroundings root place).of_ok found
    have fails := finishBuild_of_error late
    rw [same] at fails
    exact .inr ⟨directory, table, given, fails⟩

end Run

/-- Arguments that ask for nothing but a build. -/
def AsksForBuild (arguments : List String) : Prop :=
  ∀ invocation, readArguments arguments = .ok invocation →
    ∃ root directory, invocation.command = .build root directory

/-- Arguments that begin with the name of the command ask for a build. -/
theorem asksForBuild_cons (arguments : List String) : AsksForBuild ("build" :: arguments) := by
  intro invocation read
  have first : Token.read leadingForm.flags "build" = .ok (.word "build") := by decide +kernel
  rw [readArguments, Token.readAll, if_neg (by decide), first] at read
  cases others : Token.readAll leadingForm.flags arguments with
  | error =>
      rw [others] at read
      cases read
  | ok tokens =>
      rw [others] at read
      change (readProject "--out-dir" .build ((arguments.zip tokens).map Prod.fst) >>= _) = _
        at read
      rw [readProject] at read
      cases form : (projectForm "--out-dir").read ((arguments.zip tokens).map Prod.fst) with
      | error =>
          rw [form] at read
          cases read
      | ok reading =>
          rw [form] at read
          cases read
          exact ⟨_, _, rfl⟩

/-- Arguments ask for a build that gives a table, whose artifacts go to a directory. -/
def Builds (surroundings : Surroundings) (arguments : List String) (tree : Tree)
    (directory : Path) (table : Table) : Prop :=
  ∃ invocation root place, readArguments arguments = .ok invocation ∧
    invocation.command = .build root place ∧
    (buildInputs surroundings root place).outcome tree = .ok (directory, table)

/-- A build is all or nothing.  If it ends with another code than 0, it has changed nothing, and so
it is if it comes to no end, unless the writing itself has failed.  If it ends with 0, its table is
sound, and nothing has changed but the files to which the paths of the three artifacts lead, apart
from directories that were made on the way to them; the files are those of that one table, unless
links lead two of the paths to one file. -/
theorem execute_build {ending : Ending} (asks : AsksForBuild arguments)
    (ran : execute surroundings arguments tree = (ending, after)) :
    match ending with
    | .refused _ => after = tree
    | .failed failure => after = tree ∨ ∃ directory table,
        Builds surroundings arguments tree directory table ∧ table.isSound = true ∧
          WritingFails tree after directory table failure
    | .finished exit _ _ => (exit ≠ 0 → after = tree) ∧ (exit = 0 → ∃ directory table,
        Builds surroundings arguments tree directory table ∧ table.isSound = true ∧
          Artifact.Written tree after directory table) := by
  unfold execute at ran
  split at ran
  · cases ran
    rfl
  next invocation read =>
  obtain ⟨root, place, command⟩ := asks invocation read
  dsimp only at ran
  rw [command] at ran
  split at ran
  · next outcome workspace ended =>
      cases ran
      rcases run_build_of_ok ended with ⟨well, directory, table, given, done⟩ | ⟨badly, unchanged⟩
      · exact ⟨fun other => absurd well other,
          fun _ => ⟨directory, table, ⟨_, _, _, read, command, given⟩, done⟩⟩
      · exact ⟨fun _ => unchanged, fun well => by rw [badly] at well; cases well⟩
  · next failure workspace failed =>
      rcases run_build_of_error failed with unchanged | ⟨directory, table, given, sound, fails⟩
      · split at ran
        · cases ran
          exact ⟨fun _ => unchanged, nofun⟩
        · cases ran
          exact .inl unchanged
      · rw [fails.not_isTold] at ran
        cases ran
        exact .inr ⟨directory, table, ⟨_, _, _, read, command, given⟩, sound, fails⟩

/-! ## Two projects -/

/-- The surroundings of a project in `/p`. -/
def projectSurroundings : Surroundings where
  here := ⟨"/", ["p"]⟩
  home := ⟨"/", []⟩
  scratch := ⟨"/", ["fresh"]⟩

/-- A project with a function that calls itself, besides what else stands in its directory. -/
def selfCaller (others : List (Place × Entry)) : Tree :=
  ⟨[(["p"], .directory),
    (["p", "f.c.cgraph"], .file (Text.encode ("Initial Symbol table:\nf/0 (f) @0x0\n" ++
      "  Type: function\n  Calls: f/0\n  Called by: f/0\n")))] ++ others⟩

/-- Whether the build of the project in `/p` ends well. -/
def buildsWell (tree : Tree) : Bool :=
  match run projectSurroundings (.build (.text "/p") none) ⟨tree, [.journalOpened .warning]⟩ with
  | .ok outcome _ => outcome.exit = 0
  | .error _ _ => false

theorem exists_of_buildsWell (well : buildsWell tree = true) :
    ∃ output errors after directory table,
      execute projectSurroundings ["build", "/p"] tree = (.finished 0 output errors, after) ∧
        (buildInputs projectSurroundings (.text "/p") none).outcome tree = .ok (directory, table) ∧
          Artifact.Written tree after directory table := by
  have read : readArguments ["build", "/p"] = .ok ⟨0, .build (.text "/p") none⟩ := by
    decide +kernel
  unfold buildsWell at well
  split at well
  · next outcome finished ended =>
      replace well := of_decide_eq_true well
      rcases run_build_of_ok ended with ⟨-, directory, table, given, -, written⟩ | ⟨badly, -⟩
      · refine ⟨lines outcome.output, lines (shown .warning finished.journal ++ outcome.remarks),
          finished.tree, directory, table, ?_, given, written⟩
        rw [execute, read]
        change (match run projectSurroundings (.build (.text "/p") none)
          ⟨tree, [.journalOpened .warning]⟩ with | .ok _ _ => _ | .error _ _ => _) = _
        rw [ended]
        change (Ending.finished outcome.exit _ _, _) = _
        rw [well]
        rfl
      · rw [well] at badly
        cases badly
  · cases well

/-- The build of the project writes the artifacts of a sound table. -/
theorem execute_build_selfCaller :
    ∃ output errors after,
      execute projectSurroundings ["build", "/p"] (selfCaller []) =
          (.finished 0 output errors, after) ∧
        ∃ directory table, table.isSound = true ∧
          Artifact.Written (selfCaller []) after directory table := by
  have well : buildsWell (selfCaller []) = true := by decide +kernel
  obtain ⟨output, errors, after, -, -, ran, -⟩ := exists_of_buildsWell well
  obtain ⟨directory, table, -, written⟩ := (execute_build (asksForBuild_cons _) ran).2 rfl
  exact ⟨output, errors, after, ran, directory, table, written⟩

/-- Links to one file of the project in the place of two artifacts. -/
def aliases : List (Place × Entry) :=
  [(["p", "notes.txt"], .file (Text.encode "notes\n")),
    (["p", ".cgraph"], .directory),
    (["p", ".cgraph", Artifact.tableFile], .link ⟨"", ["..", "notes.txt"]⟩),
    (["p", ".cgraph", Artifact.summaryFile], .link ⟨"", ["..", "notes.txt"]⟩)]

theorem getLast?_format (table : Table) :
    table.format.toList.getLast? = none ∨ table.format.toList.getLast? = some '\n' := by
  rw [Table.format]
  rcases List.eq_nil_or_concat table.formatLines with none_ | ⟨lines, line, shape⟩
  · rw [none_]
    exact .inl rfl
  · right
    rw [shape, List.concat_eq_append, List.map_append, String.toList_join, List.flatMap_append]
    simp

theorem getLast?_summaryText (table : Table) :
    table.summaryText.toList.getLast? = some '\x7d' := by
  rw [Table.summaryText, Json.document, String.toList_ofList, Summary.toData_eq,
    Json.indented, Json.writeBlock]
  split
  · rfl
  · exact List.getLast?_concat

/-- If links lead two artifacts to one file, a build that ends well changes that file, which need
not stand in the directory of the artifacts, and the artifacts are those of no table. -/
theorem execute_build_aliases :
    ∃ output errors after,
      execute projectSurroundings ["build", "/p"] (selfCaller aliases) =
          (.finished 0 output errors, after) ∧
        after.get? ["p", "notes.txt"] ≠ (selfCaller aliases).get? ["p", "notes.txt"] ∧
        ∀ table, ¬ Artifact.Stored after ⟨"/", ["p", ".cgraph"]⟩ table := by
  have well : buildsWell (selfCaller aliases) = true := by decide +kernel
  have goesTo : (((buildInputs projectSurroundings (.text "/p") none).outcome
      (selfCaller aliases)).toOption.map Prod.fst) = some ⟨"/", ["p", ".cgraph"]⟩ := by
    decide +kernel
  have tableLeads : ((execute projectSurroundings ["build", "/p"] (selfCaller aliases)).2.walk
      .strict ⟨"/", ["p", ".cgraph", Artifact.tableFile]⟩) = .ok ["p", "notes.txt"] := by
    decide +kernel
  have summaryLeads : ((execute projectSurroundings ["build", "/p"] (selfCaller aliases)).2.walk
      .strict ⟨"/", ["p", ".cgraph", Artifact.summaryFile]⟩) = .ok ["p", "notes.txt"] := by
    decide +kernel
  obtain ⟨output, errors, after, directory, table, ran, given, written⟩ := exists_of_buildsWell well
  rw [given] at goesTo
  cases goesTo
  rw [ran] at tableLeads summaryLeads
  have summary : after.get? ["p", "notes.txt"] = some (.file (Text.encode table.summaryText)) := by
    obtain ⟨place, leads, stands⟩ := Tree.read_eq_ok_iff.mp written.summary
    cases summaryLeads.symm.trans leads
    exact stands
  refine ⟨output, errors, after, ran, fun unchanged => ?_, fun other stored => ?_⟩
  · rw [summary] at unchanged
    have texts := Text.encode_injective (Entry.file.inj (Option.some.inj unchanged))
    have last := getLast?_summaryText table
    rw [texts] at last
    revert last
    decide
  · obtain ⟨place, leads, stands⟩ := Tree.read_eq_ok_iff.mp stored.format
    cases tableLeads.symm.trans leads
    have texts := Text.encode_injective
      (Entry.file.inj (Option.some.inj (summary.symm.trans stands)))
    have last := getLast?_summaryText table
    rw [texts] at last
    rcases getLast?_format other with empty | newline
    · cases empty.symm.trans last
    · cases newline.symm.trans last

end CommandLine

end CallGraph
