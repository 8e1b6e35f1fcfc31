import CallGraph.Proofs.Projects.Generation
import CallGraph.Proofs.Projects.Rescan
import CallGraph.Proofs.TableText.Blocks

/-!
# Verifying what was just generated

Generation leaves out the directory below the root that the artifacts really go to.  Verification
generates once more in a directory elsewhere, so it leaves out what the settings say.  If both are
the same, it finds the same dumps and has no objections; otherwise what it says depends on what the
two scans find.
-/

namespace CallGraph

open Work

/-! ## Settings -/

theorem Checked.seq_eq_fine_iff {α β : Type} {change : Checked (α → β)} {checked : Checked α}
    {value : β} : change <*> checked = .fine value ↔
      ∃ apply item, change = .fine apply ∧ checked = .fine item ∧ apply item = value := by
  cases change <;> cases checked <;> simp [Seq.seq, seq]

theorem Checked.of_also {α : Type} {checked : Checked α} {more : List PlacedFault} {value : α}
    (fine : checked.also more = .fine value) : checked = .fine value := by
  cases checked with
  | faulty faults => cases fine
  | fine found =>
      rw [also] at fine
      split at fine
      · exact fine
      · cases fine

/-- A suffix has neither slash nor star. -/
theorem Settings.free_of_suffix {data : Data} {name text : String}
    (fine : (suffix data).within name = .fine text) :
    '/' ∉ text.toList ∧ '*' ∉ text.toList := by
  cases data with
  | text given =>
      simp only [suffix, Schema.text, Checked.andThen] at fine
      split at fine
      · cases fine
      · next free =>
          cases fine
          simp only [Bool.or_eq_true, not_or, List.contains_iff_mem] at free
          exact ⟨free.1.2, free.2⟩
  | _ => cases fine

/-- The suffix of settings that fit has neither slash nor star. -/
theorem Settings.free_of_ofData {data : Data} {settings : Settings}
    (valid : ofData data = .ok settings) :
    '/' ∉ settings.dumpSuffix.toList ∧ '*' ∉ settings.dumpSuffix.toList := by
  unfold ofData at valid
  cases taken : (Schema.fieldsOf data).andThen ofFields with
  | faulty faults =>
      rw [taken] at valid
      cases valid
  | fine found =>
      rw [taken] at valid
      cases valid
      cases given : Schema.fieldsOf data with
      | faulty faults =>
          rw [given] at taken
          cases taken
      | fine fields =>
          rw [given] at taken
          obtain ⟨_, _, sixth, -, rfl⟩ := Checked.seq_eq_fine_iff.mp (Checked.of_also taken)
          obtain ⟨_, _, fifth, -, rfl⟩ := Checked.seq_eq_fine_iff.mp sixth
          obtain ⟨_, _, fourth, -, rfl⟩ := Checked.seq_eq_fine_iff.mp fifth
          obtain ⟨_, _, third, -, rfl⟩ := Checked.seq_eq_fine_iff.mp fourth
          obtain ⟨_, _, second, -, rfl⟩ := Checked.seq_eq_fine_iff.mp third
          obtain ⟨outputDir, dumpSuffix, -, suffixed, rfl⟩ := Checked.map_seq_eq_fine_iff.mp second
          change '/' ∉ dumpSuffix.toList ∧ '*' ∉ dumpSuffix.toList
          unfold Schema.optional at suffixed
          split at suffixed
          · exact free_of_suffix suffixed
          · cases suffixed
            decide

/-! ## Verifying afterwards -/

variable {reader : IgnoreReader} {settings : Settings} {root directory scratch : Path}
  {place spot : Place} {below : List String} {tree made after : Tree} {added : List (Place × Entry)}

/-- A new directory elsewhere than below a place, with room for artifacts. -/
structure Scratch (place : Place) (scratch : Path) (tree made : Tree) : Prop where
  /-- Its path leads from the top. -/
  absolute : scratch.anchor = "/"
  /-- Its path does not go up. -/
  noDots : ".." ∉ scratch.names
  /-- It was not there. -/
  absent : tree.look scratch = .ok none
  /-- It was made. -/
  required : Tree.requireDirectories scratch tree = .ok () made
  /-- It does not lie below the place. -/
  outside : ∀ spot, made.walk .strict scratch = .ok spot → ¬ place <+: spot
  /-- Artifacts can have paths in it. -/
  room : ∀ name ∈ [Artifact.tableFile, Artifact.symbolsFile, Artifact.summaryFile],
    Tree.flaw? (scratch.child name) = none

/-- What was made and filled at a place elsewhere does not lie below a directory. -/
theorem outside_of_mem (wellFormed : tree.WellFormed) (madeAt : tree.MadeAt made scratch spot added)
    (directory : tree.get? place = some .directory) (outside : ¬ place <+: spot)
    (files : List (String × ByteArray)) :
    ∀ other ∈ added ++ filled spot files, ¬ place <+: other.1 := by
  intro other member isPrefix
  rcases List.mem_append.mp member with early | late
  · exact outside (isPrefix.trans (madeAt.onWay other early).2)
  · obtain ⟨file, -, rfl⟩ := List.mem_map.mp late
    rcases List.prefix_concat_iff.mp isPrefix with same | above
    · have nothing := madeAt.absent_below wellFormed (List.prefix_append spot [file.1]) (by simp)
      rw [← same, madeAt.grows.stays directory] at nothing
      cases nothing
    · exact outside above

theorem entriesBelow_append (left right : List (Place × Entry)) (place : Place) :
    Tree.entriesBelow ⟨left ++ right⟩ place =
      Tree.entriesBelow ⟨left⟩ place ++ Tree.entriesBelow ⟨right⟩ place :=
  List.filter_append _ _

theorem entriesBelow_of_outside (outside : ∀ other ∈ added, ¬ place <+: other.1)
    (below : List String) : Tree.entriesBelow ⟨added⟩ (place ++ below) = [] := by
  refine List.eq_nil_iff_forall_not_mem.mpr fun other member => ?_
  obtain ⟨listed, names, -, same⟩ := Tree.mem_entriesBelow_iff.mp member
  exact outside other listed (by rw [same, List.append_assoc]; exact List.prefix_append _ _)

section Verify

variable {generated : Generated} {journal : List Event} {table : Table}

/-- The directory that settings name is left out if artifacts go elsewhere. -/
theorem leftOut_of_outside (outside : ¬ place <+: spot) :
    leftOut settings ⟨"/", place⟩ ⟨"/", spot⟩ = settings.outputDir := by
  have nameless : outputName ⟨"/", place⟩ ⟨"/", spot⟩ = "" := by
    simp [outputName, Path.relativeTo?, List.isPrefixOf_iff_prefix, outside]
  rw [leftOut, nameless]
  rfl

theorem look_of_madeAt {path : Path} (madeAt : tree.MadeAt made path spot added) :
    made.look path = .ok (some .directory) :=
  Tree.look_eq_some_iff.mpr ⟨spot, madeAt.leads, madeAt.stands⟩

variable {before finished : Workspace}

/-- Where a new directory is, and what is left out when artifacts are generated there. -/
theorem Scratch.exists_madeAt
    (anew : GeneratedAnew reader settings root place below before finished generated)
    (aftermath :
      Aftermath reader settings root place below generated before.tree made finished.tree added)
    (aside : Scratch place scratch finished.tree after) :
    ∃ spot more, finished.tree.MadeAt after scratch spot more ∧ ¬ place <+: spot ∧
      after.resolve scratch = .ok ⟨"/", spot⟩ ∧ after.resolve root = .ok ⟨"/", place⟩ ∧
      leftOut settings ⟨"/", place⟩ ⟨"/", spot⟩ = settings.outputDir := by
  obtain ⟨spot, more, madeAt⟩ := Tree.exists_madeAt_of_requireDirectories aftermath.wellFormed
    aside.absolute aside.noDots aside.absent aside.required
  have outside := aside.outside spot madeAt.leads
  have grows := (aftermath.madeAt.grows.trans aftermath.grows).trans madeAt.grows
  exact ⟨spot, more, madeAt, outside,
    Tree.resolve_of_walk madeAt.wellFormed madeAt.leads madeAt.stands,
    Tree.resolve_of_walk madeAt.wellFormed (Tree.walk_of_grows_ok grows anew.arrives)
      (grows.stays anew.directory), leftOut_of_outside outside⟩

/-- Artifacts that were generated afresh elsewhere are compared with those that were generated
before. -/
theorem exists_compareAfresh
    (anew : GeneratedAnew reader settings root place below before finished generated)
    (aftermath :
      Aftermath reader settings root place below generated before.tree made finished.tree added)
    (aside : Scratch place scratch finished.tree after)
    (built : (buildProject root settings settings.outputDir reader).outcome after = .ok table) :
    ∃ later, compareAfresh root generated.directory scratch (some settings) reader finished =
      .ok (.of generated.table.listing table.listing) later := by
  obtain ⟨spot, more, madeAt, outside, foundAt, rootedAt, leavesOut⟩ :=
    aside.exists_madeAt anew aftermath
  have room : ∀ file ∈ table.artifacts, Tree.flaw? (scratch.child file.1) = none :=
    fun file member => aside.room file.1 (List.mem_map_of_mem member)
  -- the new directory is filled like the one before
  have required := Tree.requireDirectories_of_directory madeAt.wellFormed aside.absolute
    (look_of_madeAt madeAt)
  obtain ⟨full, written, fullWell, fullGrows⟩ :=
    (madeAt.emptyAt aftermath.wellFormed).exists_writeArtifacts required room
  obtain ⟨later, generates⟩ := @exists_generateIn reader settings root scratch after full table
    ⟨"/", spot⟩ ⟨"/", place⟩ finished.journal foundAt rootedAt
    (by rw [leavesOut, built]) written
  -- both directories have nothing but artifacts
  have emptied := aftermath.madeAt.emptyAt anew.wellFormed
  have growsOn := aftermath.grows.trans (madeAt.grows.trans fullGrows)
  have stood := (aftermath.madeAt.grows.trans aftermath.grows).stays anew.directory
  have elsewhere := outside_of_mem aftermath.wellFormed madeAt stood outside table.artifacts
  have holds : full.entriesBelow (place ++ below) =
      filled (place ++ below) generated.table.artifacts := by
    rw [emptied.entriesBelow_of_grows growsOn, entriesBelow_append, entriesBelow_filled,
      entriesBelow_of_outside elsewhere, List.append_nil]
  have found := outcome_filesBelow fullWell
    (Tree.walk_of_grows_ok (madeAt.grows.trans fullGrows) anew.inside) holds aftermath.fine
  rw [generated.table.mergeSort_artifacts] at found
  have fresh := outcome_filesBelow fullWell (Tree.walk_of_grows_ok fullGrows madeAt.leads)
    (((madeAt.emptyAt aftermath.wellFormed).entriesBelow_of_grows fullGrows).trans
      (entriesBelow_filled spot table.artifacts)) room
  rw [table.mergeSort_artifacts] at fresh
  obtain ⟨first, found⟩ := @Looks.exists_ok _ _ _ ⟨full, later⟩ (looks_filesBelow _) found
  obtain ⟨second, fresh⟩ := @Looks.exists_ok _ _ _ ⟨full, first⟩ (looks_filesBelow _) fresh
  have scratched : Work.change (Tree.requireDirectories scratch) finished =
      .ok () ⟨after, finished.journal⟩ := change_eq_ok_iff.mpr ⟨aside.required, rfl⟩
  refine ⟨⟨full, second⟩, ?_⟩
  rw [compareAfresh, bind_of_ok scratched, generate_given, bind_of_ok generates, bind_of_ok found,
    bind_of_ok fresh]
  rfl

/-- If no table can be built, no comparison is made. -/
theorem exists_compareAfresh_error {failure : Failure}
    (anew : GeneratedAnew reader settings root place below before finished generated)
    (aftermath :
      Aftermath reader settings root place below generated before.tree made finished.tree added)
    (aside : Scratch place scratch finished.tree after)
    (failed :
      (buildProject root settings settings.outputDir reader).outcome after = .error failure) :
    ∃ later, compareAfresh root generated.directory scratch (some settings) reader finished =
      .error failure later := by
  obtain ⟨spot, more, madeAt, outside, foundAt, rootedAt, leavesOut⟩ :=
    aside.exists_madeAt anew aftermath
  obtain ⟨later, fails⟩ := @exists_generateIn_error reader settings root scratch after failure
    ⟨"/", spot⟩ ⟨"/", place⟩ finished.journal foundAt rootedAt
    (by rw [leavesOut, failed])
  have scratched : Work.change (Tree.requireDirectories scratch) finished =
      .ok () ⟨after, finished.journal⟩ := change_eq_ok_iff.mpr ⟨aside.required, rfl⟩
  refine ⟨⟨after, later⟩, ?_⟩
  rw [compareAfresh, bind_of_ok scratched, generate_given]
  exact bind_eq_error_iff.mpr (.inl fails)

/-- Compare artifacts with fresh ones, and remove the fresh ones whatever happens. -/
def compareAside (root directory scratch : Path) (settings : Settings) (reader : IgnoreReader) :
    Work Comparison :=
  fun workspace =>
    match compareAfresh root directory scratch (some settings) reader workspace with
    | .ok comparison after => .ok comparison { after with tree := after.tree.erase scratch.names }
    | .error failure after => .error failure { after with tree := after.tree.erase scratch.names }

/-- Report what differs. -/
def conclude (comparison : Comparison) : Work Comparison := do
  if !comparison.mismatches.isEmpty then
    Work.report [.artifactsDiffer comparison.mismatches]
  return comparison

theorem verify_of_directory {workspace : Workspace}
    (found : workspace.tree.look directory = .ok (some .directory)) :
    verify root directory scratch (some settings) reader workspace =
      (compareAside root directory scratch settings reader >>= conclude) workspace := by
  rw [verify, bind_of_ok (holds_of_look found)]
  simp only [Bool.not_true, Bool.false_eq_true, if_false]
  rw [bind_of_ok (isDirectory_of_look found)]
  simp only [decide_true, Bool.not_true, Bool.false_eq_true, if_false]
  rfl

/-- What a verification says is what the comparison says. -/
theorem exists_verify {workspace later : Workspace} {comparison : Comparison}
    (found : workspace.tree.look directory = .ok (some .directory))
    (compared : compareAfresh root directory scratch (some settings) reader workspace =
      .ok comparison later) :
    ∃ last, verify root directory scratch (some settings) reader workspace =
      .ok comparison last := by
  have aside : compareAside root directory scratch settings reader workspace =
      .ok comparison { later with tree := later.tree.erase scratch.names } := by
    rw [compareAside, compared]
  rw [verify_of_directory found, bind_of_ok aside, conclude]
  split
  · exact ⟨_, rfl⟩
  · exact ⟨_, rfl⟩

theorem exists_verify_error {workspace later : Workspace} {failure : Failure}
    (found : workspace.tree.look directory = .ok (some .directory))
    (failed : compareAfresh root directory scratch (some settings) reader workspace =
      .error failure later) :
    ∃ last, verify root directory scratch (some settings) reader workspace =
      .error failure last := by
  have aside : compareAside root directory scratch settings reader workspace =
      .error failure { later with tree := later.tree.erase scratch.names } := by
    rw [compareAside, failed]
  rw [verify_of_directory found]
  exact ⟨_, bind_eq_error_iff.mpr (.inl aside)⟩

/-! ### The same dumps -/

theorem flaw?_under_of_prefix {path : Path} {names more : List String} (isPrefix : names <+: more)
    (fine : Tree.flaw? (path.under more) = none) : Tree.flaw? (path.under names) = none := by
  induction more using List.reverseRecOn with
  | nil => rwa [List.prefix_nil.mp isPrefix]
  | append_singleton front last induction =>
      rcases List.prefix_concat_iff.mp isPrefix with same | above
      · rwa [same]
      · rw [← Path.child_under] at fine
        exact induction above (Tree.flaw?_of_child fine)

/-- What was added below the root are directories on the way to the artifacts, and the artifacts. -/
theorem cases_of_added {names : List String} {entry : Entry} {more : List (Place × Entry)}
    (anew : GeneratedAnew reader settings root place below before finished generated)
    (aftermath :
      Aftermath reader settings root place below generated before.tree made finished.tree added)
    (outside : ∀ other ∈ more, ¬ place <+: other.1)
    (member : (place ++ names, entry) ∈
      added ++ filled (place ++ below) generated.table.artifacts ++ more) :
    entry = .directory ∧ names ≠ [] ∧ names <+: below ∨
      ∃ file ∈ generated.table.artifacts, entry = .file file.2 ∧ names = below ++ [file.1] := by
  rcases List.mem_append.mp member with generated | late
  · rcases List.mem_append.mp generated with early | late
    · obtain ⟨isDirectory, onWay⟩ := aftermath.madeAt.onWay _ early
      refine .inl ⟨isDirectory, ?_, (List.prefix_append_right_inj place).mp onWay⟩
      rintro rfl
      have nothing := aftermath.madeAt.grows.absent _ early
      rw [List.append_nil, anew.directory] at nothing
      cases nothing
    · obtain ⟨file, listed, same⟩ := List.mem_map.mp late
      obtain ⟨spot, rfl⟩ := Prod.mk.inj same
      rw [List.append_assoc] at spot
      exact .inr ⟨file, listed, rfl, (List.append_cancel_left spot).symm⟩
  · exact absurd (List.prefix_append place names) (outside _ late)

/-- The tree has grown in the directory of the root that leads to the artifacts, and outside the
root. -/
theorem exists_growsAside {first : String}
    (anew : GeneratedAnew reader settings root place below before finished generated)
    (aftermath :
      Aftermath reader settings root place below generated before.tree made finished.tree added)
    (aside : Scratch place scratch finished.tree after) (isFirst : below.head? = some first)
    (short : ∀ name ∈ [Artifact.tableFile, Artifact.symbolsFile, Artifact.summaryFile],
      Tree.flaw? (root.under (below ++ [name])) = none)
    (links : before.tree.KeepsLinks after root) :
    ∃ all, before.tree.GrowsAside after root place first all := by
  obtain ⟨spot, more, madeAt, outside, -⟩ := aside.exists_madeAt anew aftermath
  have grows := (aftermath.madeAt.grows.trans aftermath.grows).trans madeAt.grows
  have elsewhere : ∀ other ∈ more, ¬ place <+: other.1 := fun other member isPrefix =>
    outside (isPrefix.trans (madeAt.onWay other member).2)
  refine ⟨_, anew.wellFormed, madeAt.wellFormed, grows, anew.arrives, anew.directory, ?_, ?_, ?_,
    ?_, links⟩
  · intro other member target
    rcases List.mem_append.mp member with generated | late
    · exact unlinked_of_mem (fun other early => (aftermath.madeAt.onWay other early).1) _ _ other
        generated target
    · simp [(madeAt.onWay other late).1]
  · intro names entry member
    rcases cases_of_added anew aftermath elsewhere member with
      ⟨-, nonempty, rest, rfl⟩ | ⟨file, -, -, rfl⟩
    · rwa [List.head?_append_of_ne_nil _ nonempty] at isFirst
    · rw [List.head?_append, isFirst, Option.some_or]
  · intro names entry member
    rcases cases_of_added anew aftermath elsewhere member with
      ⟨-, -, isPrefix⟩ | ⟨file, listed, -, rfl⟩
    · exact flaw?_under_of_prefix (isPrefix.trans (List.prefix_append _ _))
        (short Artifact.tableFile List.mem_cons_self)
    · exact short file.1 (List.mem_map_of_mem listed)
  · intro names entry member last
    rcases cases_of_added anew aftermath elsewhere member with
      ⟨isDirectory, -⟩ | ⟨file, listed, -, rfl⟩
    · exact isDirectory
    · rw [List.getLast?_concat, Option.some.injEq] at last
      exact absurd last (Table.proper_of_mem_artifacts listed).2

/-- What is left out when artifacts are generated below the root. -/
theorem leftOut_of_head {first : String} (isFirst : below.head? = some first) (named : first ≠ "") :
    leftOut settings ⟨"/", place⟩ ⟨"/", place ++ below⟩ = first := by
  have isName : outputName ⟨"/", place⟩ ⟨"/", place ++ below⟩ = first := by
    rw [outputName, show (⟨"/", place ++ below⟩ : Path) = Path.under ⟨"/", place⟩ below from rfl,
      Path.relativeTo?_under]
    simp [isFirst]
  rw [leftOut, isName, if_neg (by simpa using named)]

/-- Two scans leave out the same directory, or no dump stands in either of those that they leave
out. -/
def Undisputed (tree : Tree) (place : Place) (settings : Settings) (first : String) : Prop :=
  first = settings.outputDir ∨ FreeOfDumps tree place settings.dumpSuffix first ∧
    FreeOfDumps tree place settings.dumpSuffix settings.outputDir

/-- A verification builds the table that was built before, unless the two scans leave out different
directories and a dump stands there. -/
theorem outcome_buildProject_of_undisputed {data : Data} {first : String}
    (valid : Settings.ofData data = .ok settings)
    (anew : GeneratedAnew reader settings root place below before finished generated)
    (aftermath :
      Aftermath reader settings root place below generated before.tree made finished.tree added)
    (aside : Scratch place scratch finished.tree after) (isFirst : below.head? = some first)
    (undisputed : Undisputed finished.tree place settings first)
    (short : ∀ name ∈ [Artifact.tableFile, Artifact.symbolsFile, Artifact.summaryFile],
      Tree.flaw? (root.under (below ++ [name])) = none)
    (links : before.tree.KeepsLinks after root) :
    (buildProject root settings settings.outputDir reader).outcome after = .ok generated.table := by
  obtain ⟨noSlash, noStar⟩ := Settings.free_of_ofData valid
  obtain ⟨all, grown⟩ := exists_growsAside anew aftermath aside isFirst short links
  have named : first ≠ "" := by
    rintro rfl
    exact anew.solid (List.mem_of_mem_head? isFirst)
  have built : (buildProject root settings first reader).outcome after = .ok generated.table := by
    have agrees : (buildProject root settings first reader).Agrees before.tree after :=
      agrees_buildProject grown named noSlash noStar
    rwa [Agrees, ← leftOut_of_head isFirst named, aftermath.built, leftOut_of_head isFirst named]
      at agrees
  rcases undisputed with same | ⟨free, otherFree⟩
  · rw [← same, built]
  · -- only directories were added since the generation
    obtain ⟨spot, more, madeAt, -⟩ := aside.exists_madeAt anew aftermath
    have still {name : String} (free : FreeOfDumps finished.tree place settings.dumpSuffix name) :
        FreeOfDumps after place settings.dumpSuffix name := by
      intro names bytes listed
      rw [madeAt.grows.entries] at listed
      rcases List.mem_append.mp listed with early | late
      · exact free names bytes early
      · cases (madeAt.onWay _ late).1
    rw [outcome_buildProject_eq grown.growsWell grown.arrivesAgain
      (grown.grows.stays grown.directory) noSlash noStar (still otherFree) (still free), built]

/-- What was just generated, in a directory below the root that was not there, verifies exactly if
the table that is built anew has the same artifacts; at all events no file is missing and none is
found too many.  So it does verify unless a dump stands in a directory that only one of the two
scans leaves out: generation leaves out the first directory on the way from the root to the
artifacts, and verification that of the name which the settings give.  Links below the root must not
lead to what was generated, and the paths of the artifacts must not be too long for a scan.  How
ignore files are read does not matter. -/
theorem verify_of_generate {data : Data} (valid : Settings.ofData data = .ok settings)
    (anew : GeneratedAnew reader settings root place below before finished generated)
    (aside : Scratch place scratch finished.tree after) :
    (match (buildProject root settings settings.outputDir reader).outcome after with
      | .error failure => ∃ last,
          verify root generated.directory scratch (some settings) reader finished =
            .error failure last
      | .ok table => ∃ comparison last,
          verify root generated.directory scratch (some settings) reader finished =
              .ok comparison last ∧
            comparison.missing = [] ∧ comparison.extra = [] ∧
              (comparison.ok = true ↔ generated.table.SameTexts table)) ∧
      ∀ first, below.head? = some first → Undisputed finished.tree place settings first →
        (∀ name ∈ [Artifact.tableFile, Artifact.symbolsFile, Artifact.summaryFile],
          Tree.flaw? (root.under (below ++ [name])) = none) →
        before.tree.KeepsLinks after root →
        ∃ comparison last,
          verify root generated.directory scratch (some settings) reader finished =
              .ok comparison last ∧ comparison.ok = true := by
  obtain ⟨made, added, aftermath⟩ := anew.exists_aftermath
  have found : finished.tree.look generated.directory = .ok (some .directory) :=
    Tree.look_eq_some_iff.mpr ⟨_, anew.inside, aftermath.grows.stays aftermath.madeAt.stands⟩
  refine ⟨?_, fun first isFirst undisputed short links => ?_⟩
  · split
    · next failure failed =>
        obtain ⟨later, compared⟩ := exists_compareAfresh_error anew aftermath aside failed
        exact exists_verify_error found compared
    · next table built =>
        obtain ⟨later, compared⟩ := exists_compareAfresh anew aftermath aside built
        obtain ⟨last, verified⟩ := exists_verify found compared
        exact ⟨_, last, verified, Comparison.missing_of_listing _ _,
          Comparison.extra_of_listing _ _, Comparison.ok_of_listing_iff _ _⟩
  · have built := outcome_buildProject_of_undisputed valid anew aftermath aside isFirst undisputed
      short links
    obtain ⟨later, compared⟩ := exists_compareAfresh anew aftermath aside built
    obtain ⟨last, verified⟩ := exists_verify found compared
    exact ⟨_, last, verified, (Comparison.ok_of_listing_iff _ _).mpr ⟨rfl, rfl, rfl⟩⟩

end Verify

/-! ### Two projects -/

/-- A directory `/p`. -/
def bareProject : Tree := ({} : Tree).put ["p"] .directory

/-- A dump with a function that calls itself. -/
def selfCall : Entry := .file (Text.encode ("Initial Symbol table:\nf/0 (f) @0x0\n" ++
  "  Type: function\n  Calls: f/0\n  Called by: f/0\n"))

/-- A project in `/p` with a dump. -/
def plainProject : Tree := bareProject.put ["p", "f.c.cgraph"] selfCall

/-- A project in `/p` with a dump in a directory. -/
def builtProject : Tree :=
  (bareProject.put ["p", "build"] .directory).put ["p", "build", "f.c.cgraph"] selfCall

theorem selfCall_ne_link (target : Path) : selfCall ≠ .link target := by simp [selfCall]

theorem wellFormed_bareProject : bareProject.WellFormed :=
  @Tree.WellFormed.put _ [] _ "p" .empty rfl (by decide) rfl (by simp)

theorem wellFormed_plainProject : plainProject.WellFormed :=
  @Tree.WellFormed.put _ ["p"] _ "f.c.cgraph" wellFormed_bareProject rfl (by decide) rfl
    selfCall_ne_link

theorem wellFormed_builtProject : builtProject.WellFormed := by
  have first : (bareProject.put ["p", "build"] .directory).WellFormed :=
    @Tree.WellFormed.put _ ["p"] _ "build" wellFormed_bareProject rfl (by decide) rfl (by simp)
  exact @Tree.WellFormed.put _ ["p", "build"] _ "f.c.cgraph" first rfl (by decide) rfl
    selfCall_ne_link

/-- Generate the artifacts of the project in `/p` in a directory of it, build its table once more
after `/fresh` was made, and judge the two tables. -/
def trial (settings : Settings) (tree : Tree) (below : List String)
    (judge : Table → Table → Bool) : Bool :=
  match generate ⟨"/", ["p"]⟩ none (some settings) .standard ⟨tree, []⟩ with
  | .error _ _ => false
  | .ok generated finished =>
      generated.directory = ⟨"/", "p" :: below⟩ &&
        finished.tree.walk .strict ⟨"/", "p" :: below⟩ = .ok ("p" :: below) &&
        finished.tree.look ⟨"/", ["fresh"]⟩ = .ok none &&
        match Tree.requireDirectories ⟨"/", ["fresh"]⟩ finished.tree with
        | .error _ _ => false
        | .ok _ made =>
            made.walk .strict ⟨"/", ["fresh"]⟩ = .ok ["fresh"] &&
              match (buildProject ⟨"/", ["p"]⟩ settings settings.outputDir).outcome made with
              | .error _ => false
              | .ok table => judge generated.table table

theorem exists_of_trial {judge : Table → Table → Bool} (wellFormed : tree.WellFormed)
    (arrives : tree.walk .strict ⟨"/", ["p"]⟩ = .ok ["p"])
    (directory : tree.get? ["p"] = some .directory)
    (absent : tree.look ⟨"/", "p" :: below⟩ = .ok none) (solid : "" ∉ below)
    (tried : trial settings tree below judge = true) :
    ∃ generated finished after table,
      GeneratedAnew .standard settings ⟨"/", ["p"]⟩ ["p"] below ⟨tree, []⟩ finished generated ∧
        Scratch ["p"] ⟨"/", ["fresh"]⟩ finished.tree after ∧
        (buildProject ⟨"/", ["p"]⟩ settings settings.outputDir).outcome after = .ok table ∧
        judge generated.table table = true := by
  unfold trial at tried
  split at tried
  · cases tried
  next generated finished ended =>
  simp only [Bool.and_eq_true, decide_eq_true_eq] at tried
  obtain ⟨⟨⟨located, inside⟩, free⟩, tried⟩ := tried
  split at tried
  · cases tried
  next made required =>
  simp only [Bool.and_eq_true, decide_eq_true_eq] at tried
  obtain ⟨leads, tried⟩ := tried
  split at tried
  · cases tried
  next table built =>
  refine ⟨generated, finished, made, table, ⟨wellFormed, arrives, directory, ended, ?_, ?_, solid⟩,
    ⟨rfl, by decide, free, required, fun spot again => ?_, by decide⟩, built, tried⟩
  · rwa [located]
  · rwa [located]
  · cases leads.symm.trans again
    decide

/-- What was generated in a directory of the root verifies.  If it is generated in a directory below
one with a dump, generation leaves out the dump and verification does not, and so what was just
generated does not verify. -/
theorem verify_of_generate_twoProjects :
    (∃ generated finished after,
      GeneratedAnew .standard {} ⟨"/", ["p"]⟩ ["p"] [".cgraph"] ⟨plainProject, []⟩ finished
          generated ∧
        Scratch ["p"] ⟨"/", ["fresh"]⟩ finished.tree after ∧
        ∃ comparison last, verify ⟨"/", ["p"]⟩ generated.directory ⟨"/", ["fresh"]⟩ (some {})
          .standard finished = .ok comparison last ∧ comparison.ok = true) ∧
      ∃ generated finished after,
        GeneratedAnew .standard { outputDir := "build/out" } ⟨"/", ["p"]⟩ ["p"] ["build", "out"]
            ⟨builtProject, []⟩ finished generated ∧
          Scratch ["p"] ⟨"/", ["fresh"]⟩ finished.tree after ∧
          ∃ comparison last, verify ⟨"/", ["p"]⟩ generated.directory ⟨"/", ["fresh"]⟩
            (some { outputDir := "build/out" }) .standard finished = .ok comparison last ∧
              comparison.ok = false := by
  constructor
  · obtain ⟨generated, finished, after, table, anew, aside, -⟩ := @exists_of_trial {} [".cgraph"]
      plainProject (fun _ _ => true) wellFormed_plainProject rfl rfl rfl (by decide)
      (by decide +kernel)
    have noLinks : ∀ path target, (path, Entry.link target) ∉ plainProject.below ⟨"/", ["p"]⟩ := by
      intro path target isLink
      rw [show plainProject.below ⟨"/", ["p"]⟩ = [(⟨"/", ["p", "f.c.cgraph"]⟩, selfCall)] from rfl,
        List.mem_singleton] at isLink
      cases (Prod.mk.inj isLink).2
    refine ⟨generated, finished, after, anew, aside, ?_⟩
    have valid : Settings.ofData (.object []) = .ok {} := rfl
    exact (verify_of_generate valid anew aside).2 ".cgraph" rfl (.inl rfl) (by decide)
      ⟨fun target isLink => absurd isLink (noLinks _ _), fun path target _ isLink =>
        absurd isLink (noLinks _ _)⟩
  · have valid : Settings.ofData (.object [("output_dir", .text "build/out")]) =
      .ok { outputDir := "build/out" } := rfl
    obtain ⟨generated, finished, after, table, anew, aside, built, differ⟩ :=
      @exists_of_trial { outputDir := "build/out" } ["build", "out"] builtProject
        (fun table other => table.format ≠ other.format) wellFormed_builtProject rfl rfl rfl
        (by decide) (by decide +kernel)
    have verified := (verify_of_generate valid anew aside).1
    rw [built] at verified
    obtain ⟨comparison, last, ended, -, -, same⟩ := verified
    refine ⟨generated, finished, after, anew, aside, comparison, last, ended, ?_⟩
    rw [Bool.eq_false_iff, ne_eq, same]
    exact fun texts => of_decide_eq_true differ texts.1

end CallGraph
