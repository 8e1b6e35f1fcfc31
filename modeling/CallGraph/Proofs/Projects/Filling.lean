import CallGraph.Proofs.Artifacts.Agreement
import CallGraph.Proofs.Looking
import CallGraph.Proofs.Sorting
import CallGraph.Proofs.Trees.Directories
import CallGraph.Proofs.Trees.Listing

/-!
# Artifacts in an empty directory

Where nothing stood in a directory, the artifacts of a table are all that stands there after they
were written, each under its own name.  So two directories that were filled in this way have the
same files, and they differ in what the texts of the two tables differ in.
-/

namespace CallGraph

variable {tree made after : Tree} {directory path : Path} {spot : Place} {name : String}
  {bytes : ByteArray} {files : List (String × ByteArray)} {added : List (Place × Entry)}
  {table : Table}

/-! ## Files that are not there -/

/-- A file that is not there is written to a directory under its name. -/
theorem Tree.write_child_of_absent (arrives : tree.walk .strict directory = .ok spot)
    (stands : tree.get? spot = some .directory) (proper : IsProper name)
    (absent : tree.get? (spot ++ [name]) = none) (fine : flaw? (directory.child name) = none) :
    write (directory.child name) bytes tree = .ok () (tree.put (spot ++ [name]) (.file bytes)) := by
  refine write_eq_ok_iff.mpr ⟨spot ++ [name], ?_, by rw [absent]; nofun, rfl⟩
  obtain ⟨left, same⟩ := @exists_walk_under _ _ name [] _ arrives fine .lastName
  rw [Path.child_eq_under, same, walkFrom,
    stride_absent stands proper.1 (by simp [proper.2.2]) absent]
  rfl

/-- Write files to a directory. -/
def writeFiles (directory : Path) : List (String × ByteArray) → Work Unit
  | [] => pure ()
  | file :: files => do
      Work.change (Tree.write (directory.child file.1) file.2)
      writeFiles directory files

/-- What stands in a directory at a place after files were written there. -/
def filled (spot : Place) (files : List (String × ByteArray)) : List (Place × Entry) :=
  files.map fun file => (spot ++ [file.1], .file file.2)

/-- Files are written only under paths that files can have. -/
theorem fine_of_writeFiles {before after : Workspace}
    (written : writeFiles directory files before = .ok () after) :
    ∀ file ∈ files, Tree.flaw? (directory.child file.1) = none := by
  induction files generalizing before with
  | nil => exact nofun
  | cons file files induction =>
      obtain ⟨_, middle, first, others⟩ := Work.bind_eq_ok_iff.mp written
      obtain ⟨place, arrives, -⟩ := Tree.write_eq_ok_iff.mp (Work.change_eq_ok_iff.mp first).1
      exact List.forall_mem_cons.mpr ⟨Tree.fine_of_walk arrives, induction others⟩

/-- Files that are not there are written to a directory, and nothing else changes. -/
theorem exists_writeFiles (wellFormed : tree.WellFormed)
    (arrives : tree.walk .strict directory = .ok spot) (stands : tree.get? spot = some .directory)
    (distinct : (files.map Prod.fst).Nodup)
    (proper : ∀ file ∈ files, Tree.IsProper file.1)
    (absent : ∀ file ∈ files, tree.get? (spot ++ [file.1]) = none)
    (fine : ∀ file ∈ files, Tree.flaw? (directory.child file.1) = none) :
    ∃ after, (∀ journal, writeFiles directory files ⟨tree, journal⟩ = .ok () ⟨after, journal⟩) ∧
      after.WellFormed ∧ tree.GrowsTo after (filled spot files) := by
  induction files generalizing tree with
  | nil => exact ⟨tree, fun _ => rfl, wellFormed, .refl tree⟩
  | cons file files induction =>
      rw [List.forall_mem_cons] at proper absent fine
      rw [List.map_cons, List.nodup_cons] at distinct
      have written := @Tree.write_child_of_absent tree directory spot file.1 file.2 arrives stands
        proper.1 absent.1 fine.1
      have grows := Tree.GrowsTo.put absent.1 (.file file.2)
      have wellPut : (tree.put (spot ++ [file.1]) (.file file.2)).WellFormed :=
        wellFormed.put stands proper.1 absent.1 fun _ => nofun
      have free (other : String × ByteArray) (member : other ∈ files) :
          (tree.put (spot ++ [file.1]) (.file file.2)).get? (spot ++ [other.1]) = none := by
        rw [Tree.get?_put tree _ (by simp), if_neg, absent.2 other member]
        intro same
        refine distinct.1 (List.mem_map.mpr ⟨other, member, ?_⟩)
        simpa using same
      obtain ⟨after, ended, growsWell, growsOn⟩ := induction wellPut
        (Tree.walk_of_grows_ok grows arrives) (grows.stays stands) distinct.2 proper.2 free fine.2
      refine ⟨after, fun journal => ?_, growsWell, grows.trans growsOn⟩
      refine Work.bind_eq_ok_iff.mpr ⟨(), ⟨_, journal⟩, ?_, ended journal⟩
      exact Work.change_eq_ok_iff.mpr ⟨written, rfl⟩

/-! ## Artifacts in an empty directory -/

/-- The artifacts of a table, in the order in which they are written. -/
def Table.artifacts (table : Table) : List (String × ByteArray) :=
  [(Artifact.tableFile, Text.encode table.format),
    (Artifact.symbolsFile, Text.encode table.symbolsText),
    (Artifact.summaryFile, Text.encode table.summaryText)]

theorem Table.names_artifacts (table : Table) : table.artifacts.map Prod.fst =
    [Artifact.tableFile, Artifact.symbolsFile, Artifact.summaryFile] := rfl

theorem Table.distinct_artifacts (table : Table) : (table.artifacts.map Prod.fst).Nodup := by
  rw [names_artifacts]
  decide

theorem Table.proper_of_mem_artifacts {file : String × ByteArray}
    (member : file ∈ table.artifacts) :
    Tree.IsProper file.1 ∧ file.1 ≠ ignoreFileName := by
  have all : ∀ name ∈ [Artifact.tableFile, Artifact.symbolsFile, Artifact.summaryFile],
      Tree.IsProper name ∧ name ≠ ignoreFileName := by decide
  exact all file.1 (List.mem_map_of_mem member)

theorem writeArtifacts_eq (table : Table) (directory : Path) :
    writeArtifacts table directory = (do
      Work.change (Tree.requireDirectories directory)
      writeFiles directory table.artifacts) := by
  simp only [writeArtifacts, writeText, Table.artifacts, writeFiles, bind_pure_unit]

/-- A path leads to a directory in which nothing stands. -/
structure Tree.EmptyAt (tree : Tree) (directory : Path) (spot : Place) : Prop where
  /-- The tree is well-formed. -/
  wellFormed : tree.WellFormed
  /-- The path leads to the place. -/
  leads : tree.walk .strict directory = .ok spot
  /-- A directory stands there. -/
  stands : tree.get? spot = some .directory
  /-- Nothing stands below it. -/
  empty : ∀ names, names ≠ [] → tree.get? (spot ++ names) = none

/-- A directory that was just made is empty. -/
theorem Tree.MadeAt.emptyAt (wellFormed : tree.WellFormed)
    (madeAt : tree.MadeAt after path spot added) : after.EmptyAt path spot where
  wellFormed := madeAt.wellFormed
  leads := madeAt.leads
  stands := madeAt.stands
  empty names nonempty :=
    madeAt.absent_below wellFormed (List.prefix_append _ _) (by simpa using nonempty)

/-- The artifacts of a table are written to an empty directory, and nothing else changes. -/
theorem Tree.EmptyAt.exists_writeArtifacts (empty : made.EmptyAt directory spot)
    (required : requireDirectories directory tree = .ok () made)
    (fine : ∀ file ∈ table.artifacts, flaw? (directory.child file.1) = none) :
    ∃ after,
      (∀ journal, writeArtifacts table directory ⟨tree, journal⟩ = .ok () ⟨after, journal⟩) ∧
      after.WellFormed ∧ made.GrowsTo after (filled spot table.artifacts) := by
  obtain ⟨after, written, rest⟩ := exists_writeFiles empty.wellFormed empty.leads
    empty.stands table.distinct_artifacts
    (fun file member => (Table.proper_of_mem_artifacts member).1)
    (fun file _ => empty.empty _ (by simp)) fine
  refine ⟨after, fun journal => ?_, rest⟩
  rw [writeArtifacts_eq]
  refine Work.bind_eq_ok_iff.mpr ⟨(), ⟨made, journal⟩, ?_, written journal⟩
  exact Work.change_eq_ok_iff.mpr ⟨required, rfl⟩

/-- Artifacts that were written to a directory, which was empty when it had been made, are all that
has changed since then. -/
theorem Tree.EmptyAt.of_writeArtifacts {before after : Workspace}
    (empty : made.EmptyAt directory spot)
    (required : requireDirectories directory before.tree = .ok () made)
    (written : writeArtifacts table directory before = .ok () after) :
    after.tree.WellFormed ∧ made.GrowsTo after.tree (filled spot table.artifacts) ∧
      ∀ file ∈ table.artifacts, flaw? (directory.child file.1) = none := by
  have fine : ∀ file ∈ table.artifacts, flaw? (directory.child file.1) = none := by
    have ended := written
    rw [writeArtifacts_eq] at ended
    obtain ⟨_, middle, -, ended⟩ := Work.bind_eq_ok_iff.mp ended
    exact fine_of_writeFiles ended
  obtain ⟨last, ended, wellFormed, grows⟩ := empty.exists_writeArtifacts required fine
  cases written.symm.trans (ended before.journal)
  exact ⟨wellFormed, grows, fine⟩

/-! ## The files below a directory -/

/-- In a directory that was empty stands what was added below it. -/
theorem Tree.EmptyAt.entriesBelow_of_grows (empty : tree.EmptyAt directory spot)
    (grows : tree.GrowsTo after added) :
    after.entriesBelow spot = entriesBelow ⟨added⟩ spot := by
  have nothing : tree.entriesBelow spot = [] := by
    refine List.eq_nil_iff_forall_not_mem.mpr fun other member => ?_
    obtain ⟨listed, names, nonempty, same⟩ := mem_entriesBelow_iff.mp member
    have stands := (empty.wellFormed.mem_entries_iff.mp listed).2
    rw [same, empty.empty names nonempty] at stands
    cases stands
  change after.entries.filter _ = _
  rw [grows.entries, List.filter_append]
  exact congrArg (· ++ _) nothing

theorem entriesBelow_filled (spot : Place) (files : List (String × ByteArray)) :
    Tree.entriesBelow ⟨filled spot files⟩ spot = filled spot files := by
  refine List.filter_eq_self.mpr fun other member => ?_
  obtain ⟨file, -, rfl⟩ := List.mem_map.mp member
  simp

theorem looks_filesBelow (directory : Path) : (filesBelow directory).Looks :=
  Work.gives_tree.looks.bind fun _ => (Work.looks_mapM (fun path =>
    (Work.looks_look path).bind fun _ => Work.looks_pure _) _).bind fun _ => Work.looks_pure _

theorem look_child_of_filled {file : String × ByteArray} (wellFormed : tree.WellFormed)
    (leads : tree.walk .strict directory = .ok spot)
    (below : tree.entriesBelow spot = filled spot files) (member : file ∈ files)
    (fine : Tree.flaw? (directory.child file.1) = none) :
    tree.look (directory.child file.1) = .ok (some (.file file.2)) := by
  have listed : (spot ++ [file.1], Entry.file file.2) ∈ tree.entriesBelow spot := by
    rw [below]
    exact List.mem_map_of_mem member
  obtain ⟨listed, -⟩ := Tree.mem_entriesBelow_iff.mp listed
  exact Tree.look_under wellFormed leads (wellFormed.mem_entries_iff.mp listed).2 (by simp) fine

theorem paths_below_of_filled (leads : tree.walk .strict directory = .ok spot)
    (below : tree.entriesBelow spot = filled spot files) :
    (tree.below directory).map Prod.fst = files.map fun file => directory.child file.1 := by
  rw [Tree.below_eq_listingAt leads, Tree.listingAt, below, filled, List.map_map, List.map_map]
  refine List.map_congr_left fun file _ => ?_
  simp [Path.under, Path.child]

/-- The files of a directory in which nothing else stands, in the order of their names. -/
theorem outcome_filesBelow (wellFormed : tree.WellFormed)
    (leads : tree.walk .strict directory = .ok spot)
    (below : tree.entriesBelow spot = filled spot files)
    (fine : ∀ file ∈ files, Tree.flaw? (directory.child file.1) = none) :
    (filesBelow directory).outcome tree =
      .ok (files.mergeSort fun left right => left.1 ≤ right.1) := by
  have looks (path : Path) :
      (do return (path, ← Work.look path) : Work (Path × Option Entry)).Looks :=
    (Work.looks_look path).bind fun _ => Work.looks_pure _
  have looked (file : String × ByteArray) (member : file ∈ files) :
      (do return (directory.child file.1, ← Work.look (directory.child file.1)) :
        Work (Path × Option Entry)).outcome tree =
          .ok (directory.child file.1, some (.file file.2)) := by
    rw [Work.outcome_bind (Work.looks_look _) fun _ => Work.looks_pure _,
      (Work.gives_look _).outcome_eq,
      look_child_of_filled wellFormed leads below member (fine file member)]
    rfl
  rw [filesBelow, Work.outcome_bind Work.gives_tree.looks fun _ =>
    (Work.looks_mapM looks _).bind fun _ => Work.looks_pure _, Work.gives_tree.outcome_eq]
  change (List.mapM _ _ >>= _ : Work _).outcome tree = _
  have looksAt (file : String × ByteArray) := looks (directory.child file.1)
  rw [paths_below_of_filled leads below, List.mapM_map, Function.comp_def,
    Work.outcome_bind (Work.looks_mapM looksAt files) fun _ => Work.looks_pure _,
    Work.outcome_mapM looksAt looked]
  change Except.ok (List.mergeSort (List.filterMap _ (files.map _)) _) = _
  rw [List.filterMap_map]
  refine congrArg (fun listed => Except.ok (List.mergeSort listed _)) ?_
  refine Eq.trans (congrArg (List.filterMap · files) (funext fun file => ?_)) (List.filterMap_some)
  have relative : (directory.child file.1).relativeTo? directory = some { names := [file.1] } :=
    directory.relativeTo?_under [file.1]
  simp [relative, Path.render]

/-! ## Comparing artifacts -/

/-- Two tables have the same artifacts. -/
def Table.SameTexts (table other : Table) : Prop :=
  table.format = other.format ∧ table.symbolsText = other.symbolsText ∧
    table.summaryText = other.summaryText

/-- The artifacts of a table, in the order of their names. -/
def Table.listing (table : Table) : List (String × ByteArray) :=
  [(Artifact.tableFile, Text.encode table.format),
    (Artifact.summaryFile, Text.encode table.summaryText),
    (Artifact.symbolsFile, Text.encode table.symbolsText)]

theorem Table.mergeSort_artifacts (table : Table) :
    (table.artifacts.mergeSort fun left right => left.1 ≤ right.1) = table.listing := by
  rw [mergeSort_first_eq table.distinct_artifacts (List.Perm.cons _ (List.Perm.swap _ _ _))]
  refine List.mergeSort_of_pairwise (List.pairwise_map.mp
    (?_ : (table.listing.map Prod.fst).Pairwise fun left right => decide (left ≤ right) = true))
  change [Artifact.tableFile, Artifact.summaryFile, Artifact.symbolsFile].Pairwise _
  decide

namespace Comparison

variable (table other : Table)

/-- The artifacts of two tables have the same names. -/
theorem missing_of_listing : (of table.listing other.listing).missing = [] := by
  simp [of, filesWithout, Table.listing, List.lookup, Artifact.tableFile, Artifact.summaryFile,
    Artifact.symbolsFile]

theorem extra_of_listing : (of table.listing other.listing).extra = [] :=
  missing_of_listing other table

/-- The artifacts of two tables differ in nothing but contents. -/
theorem ok_of_listing_iff : (of table.listing other.listing).ok = true ↔ table.SameTexts other := by
  have same (left right : String) :
      (Text.encode right != Text.encode left) = false ↔ left = right := by
    change (!((Text.encode right).data == (Text.encode left).data)) = false ↔ _
    rw [Bool.not_eq_false', beq_iff_eq, ← ByteArray.ext_iff]
    exact ⟨fun equal => (Text.encode_injective equal).symm, fun equal => by rw [equal]⟩
  rw [ok, missing_of_listing, extra_of_listing]
  simp [of, Table.listing, List.lookup, Artifact.tableFile, Artifact.summaryFile,
    Artifact.symbolsFile, Table.SameTexts, same, and_comm]

end Comparison

end CallGraph
