import CallGraph.Proofs.Artifacts.Validity
import CallGraph.Proofs.Building
import CallGraph.Proofs.Trees.Writing
import Mathlib

/-!
# Writers and checkers agree

The artifacts that are written of a sound table stand in their directory afterwards, and the check
of the directory finds nothing to say about them.
-/

namespace CallGraph

/-! ## Work that looks at the tree -/

namespace Work

variable {workspace middle after : Workspace} {path : Path} {entry : Entry} {bytes : ByteArray}

theorem bind_of_ok {α β : Type} {action : Work α} {next : α → Work β} {value : α}
    (ended : action workspace = .ok value middle) :
    (action >>= next) workspace = next value middle := by
  change EStateM.bind action next workspace = _
  unfold EStateM.bind
  rw [ended]

theorem look_of_look (found : workspace.tree.look path = .ok (some entry)) :
    Work.look path workspace = .ok (some entry) workspace := by
  change Work.demand Failure.tree (workspace.tree.look path) workspace = _
  rw [found]
  rfl

theorem holds_of_look (found : workspace.tree.look path = .ok (some entry)) :
    Work.holds path workspace = .ok true workspace := by
  rw [Work.holds, bind_of_ok (look_of_look found)]
  rfl

theorem isDirectory_of_look (found : workspace.tree.look path = .ok (some entry)) :
    Work.isDirectory path workspace = .ok (decide (some entry = some .directory)) workspace := by
  rw [Work.isDirectory, bind_of_ok (look_of_look found)]
  rfl

theorem change_eq_ok_iff {α : Type} {action : Tree.Action α} {result : α} :
    Work.change action workspace = .ok result after ↔
      action workspace.tree = .ok result after.tree ∧ after.journal = workspace.journal := by
  obtain ⟨tree, journal⟩ := after
  unfold Work.change
  cases action workspace.tree with
  | error => simp
  | ok value changed =>
      simp only [EStateM.Result.ok.injEq, Workspace.mk.injEq, @eq_comm _ journal, and_assoc]

end Work

section Looking

variable {workspace after : Workspace} {path : Path} {bytes : ByteArray}

theorem Tree.look_of_read {tree : Tree} (read : tree.read path = .ok bytes) :
    tree.look path = .ok (some (.file bytes)) := by
  obtain ⟨place, leads, stands⟩ := read_eq_ok_iff.mp read
  rw [look, leads]
  exact congrArg Except.ok stands

theorem readBytes?_of_read (read : workspace.tree.read path = .ok bytes) :
    readBytes? path workspace = .ok (some bytes) workspace := by
  have present : Work.tree workspace = .ok workspace.tree workspace := rfl
  rw [readBytes?, Work.bind_of_ok present, read]
  rfl

theorem validateFile_of_read {check : Work Report} {report : Report} (artifact : String)
    (read : workspace.tree.read path = .ok bytes)
    (checked : check workspace = .ok report after) :
    validateFile artifact path check workspace = .ok report after := by
  rw [validateFile, Work.bind_of_ok (Work.holds_of_look (Tree.look_of_read read))]
  exact checked

/-- The check of a file that holds a table reads the table and reports that it was done. -/
theorem validateTable_of_read (read : workspace.tree.read path = .ok bytes) :
    ∃ done, validateTable path workspace =
      .ok (Artifact.checkTable path.render (Artifact.readTable path.render (some bytes))) done ∧
        done.tree = workspace.tree := by
  have loaded : loadTable path workspace =
      .ok (Artifact.readTable path.render (some bytes)) workspace := by
    rw [loadTable, Work.bind_of_ok (Work.isDirectory_of_look (Tree.look_of_read read))]
    change (readBytes? path >>= fun content =>
      (pure (Artifact.readTable path.render content) : Work TableReading)) workspace = _
    rw [Work.bind_of_ok (readBytes?_of_read read)]
    rfl
  rw [validateTable, Work.bind_of_ok loaded]
  cases (Artifact.readTable path.render (some bytes)).table with
  | none => exact ⟨_, rfl, rfl⟩
  | some table => exact ⟨_, rfl, rfl⟩

end Looking

/-! ## A directory with the artifacts of a table -/

/-- A directory holds the artifacts of a table. -/
structure Artifact.Stored (tree : Tree) (directory : Path) (table : Table) : Prop where
  /-- The directory is there. -/
  present : tree.look directory = .ok (some .directory)
  /-- The file of the table. -/
  format : tree.read (directory.child tableFile) = .ok (Text.encode table.format)
  /-- The file of the symbols. -/
  symbols : tree.read (directory.child symbolsFile) = .ok (Text.encode table.symbolsText)
  /-- The file of the summary. -/
  summary : tree.read (directory.child summaryFile) = .ok (Text.encode table.summaryText)

namespace Artifact.Stored

variable {directory : Path} {table : Table} {before after workspace : Workspace}

/-- The check of such a directory finds nothing, whether or not it is strict about versions. -/
theorem validate (stored : Stored workspace.tree directory table) (sound : table.isSound = true)
    (representable : table.Representable)
    (writable : Json.isWritable table.summary.toData = true) (strict : Bool) :
    ∃ done, validateArtifacts directory strict workspace = .ok {} done := by
  obtain ⟨tabled, checkedTable, same⟩ := validateTable_of_read stored.format
  rw [checkTable_format sound representable] at checkedTable
  have symbols : tabled.tree.read (directory.child symbolsFile) =
      .ok (Text.encode table.symbolsText) := same ▸ stored.symbols
  have summary : tabled.tree.read (directory.child summaryFile) =
      .ok (Text.encode table.summaryText) := same ▸ stored.summary
  have checkedSymbols : (do
      return checkSymbols (directory.child symbolsFile).render
        (← readBytes? (directory.child symbolsFile)) strict : Work Report) tabled =
      .ok {} tabled := by
    rw [Work.bind_of_ok (readBytes?_of_read symbols), checkSymbols_symbolsText]
    rfl
  have checkedSummary : (do
      return checkSummary (directory.child summaryFile).render
        (← readBytes? (directory.child summaryFile)) strict : Work Report) tabled =
      .ok {} tabled := by
    rw [Work.bind_of_ok (readBytes?_of_read summary), checkSummary_summaryText writable]
    rfl
  refine ⟨tabled, ?_⟩
  rw [validateArtifacts, Work.bind_of_ok (Work.holds_of_look stored.present)]
  simp only [Bool.not_true, Bool.false_eq_true, if_false]
  rw [Work.bind_of_ok (Work.isDirectory_of_look stored.present)]
  simp only [decide_true, Bool.not_true, Bool.false_eq_true, if_false]
  rw [Work.bind_of_ok (validateFile_of_read "table" stored.format checkedTable),
    Work.bind_of_ok (validateFile_of_read "symbols" symbols checkedSymbols),
    Work.bind_of_ok (validateFile_of_read "summary" summary checkedSummary)]
  rfl

/-- Writing the artifacts of a table leaves them in their directory, unless links lead two of the
files to one place. -/
theorem of_writeArtifacts (written : writeArtifacts table directory before = .ok () after)
    (apart : ([tableFile, symbolsFile, summaryFile].map fun file =>
      after.tree.walk .strict (directory.child file)).Nodup) :
    Stored after.tree directory table := by
  obtain ⟨_, made, -, written⟩ := Work.bind_eq_ok_iff.mp written
  obtain ⟨_, tabled, first, written⟩ := Work.bind_eq_ok_iff.mp written
  obtain ⟨_, listed, second, third⟩ := Work.bind_eq_ok_iff.mp written
  replace first := (Work.change_eq_ok_iff.mp first).1
  replace second := (Work.change_eq_ok_iff.mp second).1
  replace third := (Work.change_eq_ok_iff.mp third).1
  simp only [List.map_cons, List.map_nil, List.nodup_cons, List.mem_cons, List.not_mem_nil,
    or_false, not_or] at apart
  obtain ⟨⟨tableSymbols, tableSummary⟩, symbolsSummary, -⟩ := apart
  obtain ⟨again, readAgain, sameBefore⟩ := Tree.exists_read_of_write second
    (Tree.read_of_write first)
  have symbols := Tree.read_of_write second
  rw [Tree.walk_of_write third readAgain] at tableSymbols
  rw [Tree.walk_of_write third symbols] at tableSymbols
  cases sameBefore tableSymbols
  obtain ⟨_, format, sameFormat⟩ := Tree.exists_read_of_write third readAgain
  cases sameFormat tableSummary
  obtain ⟨_, symbols, sameSymbols⟩ := Tree.exists_read_of_write third symbols
  cases sameSymbols symbolsSummary
  have summary := Tree.read_of_write third
  obtain ⟨place, leads, -⟩ := Tree.read_eq_ok_iff.mp summary
  exact ⟨Tree.look_of_walk_child leads, format, symbols, summary⟩

end Artifact.Stored

/-- Writers and checkers agree.  Take a sound table that its text can hold, and whose summary the
writer of JSON takes, which is to say that its counts have room in 64 bits.  In a directory that
holds the artifacts of the table the check finds no errors and nothing that deserves a warning,
whether or not it is strict about versions; and so it is in every directory to which they were
written, unless links lead two of the files to one place. -/
theorem Table.validateArtifacts_of_written {table : Table} (sound : table.isSound = true)
    (representable : table.Representable)
    (writable : Json.isWritable table.summary.toData = true) (directory : Path) :
    (∀ workspace, Artifact.Stored workspace.tree directory table →
      ∀ strict, ∃ report done, validateArtifacts directory strict workspace = .ok report done ∧
        report.errors = [] ∧ report.warnings = []) ∧
      ∀ before after, writeArtifacts table directory before = .ok () after →
        ([Artifact.tableFile, Artifact.symbolsFile, Artifact.summaryFile].map fun file =>
          after.tree.walk .strict (directory.child file)).Nodup →
        Artifact.Stored after.tree directory table ∧
          ∀ strict, ∃ report done, validateArtifacts directory strict after = .ok report done ∧
            report.errors = [] ∧ report.warnings = [] := by
  have clean (workspace : Workspace) (stored : Artifact.Stored workspace.tree directory table)
      (strict : Bool) : ∃ report done,
        validateArtifacts directory strict workspace = .ok report done ∧
          report.errors = [] ∧ report.warnings = [] := by
    obtain ⟨done, checked⟩ := stored.validate sound representable writable strict
    exact ⟨{}, done, checked, rfl, rfl⟩
  refine ⟨clean, fun before after written apart => ?_⟩
  have stored := Artifact.Stored.of_writeArtifacts written apart
  exact ⟨stored, clean after stored⟩

/-- A caller and a function whose names have quotes, a backslash and a letter outside ASCII. -/
def quotedCallee : Table :=
  Table.ofRecords
    [("main",
      { name := "main", kind := some .function, visibility := some .exported
        origins := ["src/main.c"], calls := ["say \"é\""] }),
     ("say \"é\"",
      { name := "say \\ \"é\"", kind := some .function, origins := ["src/say.c"]
        calledBy := ["main"] })]

/-- The places of the artifacts in `/out`, once they were written. -/
def artifactPlaces : EStateM.Result Failure Workspace Unit → List (Option Place)
  | .ok _ after => ([Artifact.tableFile, Artifact.symbolsFile, Artifact.summaryFile].map
      fun file => after.tree.walk .strict (Path.child ⟨"/", ["out"]⟩ file)).map Except.toOption
  | .error _ _ => []

/-- Their artifacts can be written to a directory that is not there yet. -/
theorem validateArtifacts_quotedCallee :
    ∃ after, writeArtifacts quotedCallee ⟨"/", ["out"]⟩ ⟨{}, []⟩ = .ok () after ∧
      ∀ strict, ∃ report done, validateArtifacts ⟨"/", ["out"]⟩ strict after = .ok report done ∧
        report.errors = [] ∧ report.warnings = [] := by
  have sound : quotedCallee.isSound = true := by cbv
  have writable : Json.isWritable quotedCallee.summary.toData = true :=
    Table.isWritable_summary (by decide +kernel) (by decide +kernel) (by decide +kernel)
  have representable : quotedCallee.Representable := by
    intro key record found
    have member := (quotedCallee.mem_entries_iff key record).mpr found
    rw [quotedCallee, Table.ofRecords, Table.entries, KeyMap.entries_ofList (by decide)] at member
    rcases List.mem_cons.mp member with same | last
    · cases same
      refine ⟨⟨⟨_, _, rfl, by decide, by decide⟩, by decide⟩, rfl, by decide, by decide, ?_⟩
      rintro ((_ | _ | _ | _) | _) <;> decide
    · cases List.mem_singleton.mp last
      refine ⟨⟨⟨_, _, rfl, by decide, by decide⟩, by decide⟩, rfl, by decide, by decide, ?_⟩
      rintro ((_ | _ | _ | _) | _) <;> decide
  have places : artifactPlaces (writeArtifacts quotedCallee ⟨"/", ["out"]⟩ ⟨{}, []⟩) =
      [some ["out", "cgraph.yaml"], some ["out", "symbols.jsonl"],
        some ["out", "summary.json"]] := by
    decide +kernel
  cases written : writeArtifacts quotedCallee ⟨"/", ["out"]⟩ ⟨{}, []⟩ with
  | error failure after =>
      rw [written] at places
      cases places
  | ok _ after =>
      rw [written] at places
      have different : [some ["out", "cgraph.yaml"], some ["out", "symbols.jsonl"],
          some ["out", "summary.json"]].Nodup := by decide
      have apart := List.Nodup.of_map Except.toOption (places.symm ▸ different)
      obtain ⟨-, valid⟩ := (Table.validateArtifacts_of_written sound representable writable
        ⟨"/", ["out"]⟩).2 _ after written apart
      exact ⟨after, rfl, valid⟩

end CallGraph
