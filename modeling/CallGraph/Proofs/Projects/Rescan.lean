import CallGraph.Proofs.Projects.Selecting
import CallGraph.Proofs.Trimming

/-!
# Scanning again

When a tree has grown in a directory that a scan leaves out, or outside the root, the scan finds
the same dumps as before, and building from them gives the same table.
-/

namespace CallGraph

open Work

variable {reader : IgnoreReader} {tree after : Tree} {root path : Path} {place : Place}
  {name suffix : String}
  {added : List (Place × Entry)} {bytes : ByteArray}

/-! ## Reading again -/

/-- A file that is found is read, also when the tree has grown. -/
theorem Tree.read_of_look (grows : tree.GrowsTo after added)
    (found : tree.look path = .ok (some (.file bytes))) :
    tree.read path = .ok bytes ∧ after.read path = .ok bytes := by
  obtain ⟨spot, arrives, stands⟩ := look_eq_some_iff.mp found
  exact ⟨read_eq_ok_iff.mpr ⟨spot, arrives, stands⟩,
    read_eq_ok_iff.mpr ⟨spot, walk_of_grows_ok grows arrives, grows.stays stands⟩⟩

theorem agrees_read (same : after.read path = tree.read path) :
    (Work.read path).Agrees tree after :=
  (gives_read path).agrees (by rw [same])

theorem agrees_readIgnoreFile (same : after.read path = tree.read path) :
    (Selection.readIgnoreFile reader path).Agrees tree after := by
  refine (agrees_read same).bind (looks_read path) (fun bytes => ?_) fun bytes _ => ?_
  · split
    · exact looks_throw _
    · exact looks_demand _ _
  · split
    · exact agrees_throw _
    · exact agrees_demand _ _

theorem agrees_readSection (same : after.read path = tree.read path) :
    (readSection path).Agrees tree after :=
  (agrees_read same).bind (looks_read path) (fun _ => looks_pure _) fun _ _ => agrees_pure _

/-- Reading what was taken from files does not look at the tree. -/
theorem agrees_readDump (root : Path) (suffix : String) (table : Table)
    (dump : Path × List String) : (readDump root suffix table dump).Agrees tree after := by
  refine (agrees_report _).bind (looks_report _) (fun _ => ?_) fun _ _ => ?_
  · split
    · exact (looks_report _).bind fun _ => looks_pure _
    · exact (looks_report _).bind fun _ => looks_throw _
  · split
    · exact (agrees_report _).bind (looks_report _) (fun _ => looks_pure _) fun _ _ => agrees_pure _
    · exact (agrees_report _).bind (looks_report _) (fun _ => looks_throw _)
        fun _ _ => agrees_throw _

/-- Files that are found give the same table. -/
theorem agrees_buildFromFiles (root : Path) (suffix : String) {files : List Path}
    (grows : tree.GrowsTo after added)
    (found : ∀ file ∈ files, ∃ bytes, tree.look file = .ok (some (.file bytes))) :
    (buildFromFiles root suffix files).Agrees tree after := by
  have sections : (files.mapM readSection).Agrees tree after := by
    refine agrees_mapM looks_readSection fun file member => ?_
    obtain ⟨bytes, found⟩ := found file member
    obtain ⟨read, again⟩ := Tree.read_of_look grows found
    exact agrees_readSection (again.trans read.symm)
  have looks (table : Table) : (do
      report table.resolveEvents
      return table.resolve : Work Table).Looks := (looks_report _).bind fun _ => looks_pure _
  refine sections.bind (looks_mapM looks_readSection files)
    (fun _ => (looks_foldlM (looks_readDump root suffix) _ _).bind looks) fun _ _ => ?_
  refine (agrees_foldlM (looks_readDump root suffix) (agrees_readDump root suffix) _ _).bind
    (looks_foldlM (looks_readDump root suffix) _ _) looks fun _ _ => ?_
  exact (agrees_report _).bind (looks_report _) (fun _ => looks_pure _) fun _ _ => agrees_pure _

/-! ## Ignore files -/

/-- A pattern for the names of dumps has one part. -/
theorem parse?_suffix (noSlash : '/' ∉ suffix.toList) (noStar : '*' ∉ suffix.toList) :
    PathPattern.parse? ("*" ++ suffix) = some [.fitting ("*" ++ suffix)] := by
  have letters : ("*" ++ suffix).toList = '*' :: suffix.toList := String.toList_append
  have slashless : '/' ∉ ("*" ++ suffix).toList := by
    rw [letters, List.mem_cons]
    exact not_or.mpr ⟨by decide, noSlash⟩
  have other {word : String} (different : word.toList.head? ≠ some '*') :
      "*" ++ suffix ≠ word := by
    rintro rfl
    rw [letters] at different
    exact different rfl
  have names : (Path.parse ("*" ++ suffix)).names = ["*" ++ suffix] := by
    rw [Path.parse]
    dsimp only
    rw [Path.namesOf, List.splitOn_eq_singleton slashless, List.map_singleton,
      String.ofList_toList, List.filter_singleton, bne_iff_ne.mpr (other (by decide)),
      bne_iff_ne.mpr (other (by decide))]
    rfl
  have alone : Text.contains ("*" ++ suffix) "**" = false := by
    rw [Bool.eq_false_iff, Text.contains, ne_eq, Text.occursIn_iff_infix, letters,
      List.infix_cons_iff]
    rintro (starts | occurs)
    · obtain ⟨rest, shape⟩ := starts
      exact noStar (by rw [← (List.cons.inj shape).2]; exact List.mem_cons_self)
    · exact noStar (occurs.subset List.mem_cons_self)
  have part : PathPart.parse? ("*" ++ suffix) = some (.fitting ("*" ++ suffix)) := by
    rw [PathPart.parse?, if_neg, if_neg (by simp [alone]), if_pos]
    · simp [PathPart.isShellPattern, letters]
    · intro same
      rw [same] at alone
      exact absurd alone (by decide)
  rw [PathPattern.parse?, names]
  simp only [List.mapM_cons, List.mapM_nil, part]
  exact congrArg some (if_neg fun last => slashless (List.mem_of_getLast? last))

theorem outcome_ignoreFilesBelow (root : Path) (tree : Tree) :
    (Selection.ignoreFilesBelow root).outcome tree =
      (keep Selection.isOwnFile (((tree.below root).map Prod.fst).filter fun path =>
        path.name == ignoreFileName)).outcome tree >>= fun files =>
          .ok (files.mergeSort fun left right => left.render ≤ right.render) := by
  have sorts (paths : List Path) : (do
      let files ← keep Selection.isOwnFile (paths.filter fun path => path.name == ignoreFileName)
      return files.mergeSort fun left right => left.render ≤ right.render :
        Work (List Path)).Looks :=
    (looks_keep looks_isOwnFile _).bind fun _ => looks_pure _
  rw [Selection.ignoreFilesBelow, outcome_bind gives_tree.looks fun _ => sorts _,
    gives_tree.outcome_eq]
  exact outcome_bind (looks_keep looks_isOwnFile _) (fun _ => looks_pure _) tree

theorem found_of_mem_ignoreFilesBelow {files : List Path}
    (given : (Selection.ignoreFilesBelow root).outcome tree = .ok files) :
    ∀ file ∈ files, ∃ bytes, tree.look file = .ok (some (.file bytes)) := by
  obtain ⟨paths, -, given⟩ := (outcome_bind_eq_ok_iff gives_tree.looks fun _ =>
    (looks_keep looks_isOwnFile _).bind fun _ => looks_pure _).mp given
  obtain ⟨own, kept, sorted⟩ :=
    (outcome_bind_eq_ok_iff (looks_keep looks_isOwnFile _) fun _ => looks_pure _).mp given
  cases sorted
  intro file member
  exact Selection.exists_look_of_isOwnFile
    (passed_of_mem_keep looks_isOwnFile kept file (List.mem_mergeSort.mp member)).2

/-! ## Dumps -/

theorem outcome_selectBelow {pattern : String} (arrives : tree.walk .strict root = .ok place)
    (directory : tree.get? place = some .directory) :
    (PathPattern.selectBelow [.fitting pattern] root).outcome tree =
      .ok (PathPattern.candidates tree pattern root) := by
  have found : tree.look root = .ok (some .directory) :=
    Tree.look_eq_some_iff.mpr ⟨place, arrives, directory⟩
  have isDirectory : (isDirectory root).outcome tree = .ok true := by
    rw [isDirectory, outcome_bind (looks_look root) fun _ => looks_pure _,
      (gives_look root).outcome_eq, found]
    rfl
  rw [PathPattern.selectBelow, outcome_bind (looks_isDirectory root) fun _ =>
    looks_ite (looks_select _ _) (looks_pure _), isDirectory]
  exact PathPattern.outcome_select_anyDepth pattern root tree

namespace Scan

/-- What a scan selects, given the ignore files that count. -/
def selection (scan : Scan) (files : List IgnoreRules) : Selection where
  root := scan.root
  outputDir := scan.outputDir
  ignoreFiles := (scan.scope, files)
  included := scan.included
  excluded := scan.excluded

/-- The paths that a scan selects, given the ignore files that count. -/
def selected (scan : Scan) (files : List IgnoreRules) : Work (List Path) := do
  keep (scan.selection files).accepts
    (← PathPattern.selectBelow [.fitting ("*" ++ scan.suffix)] scan.root)

/-- What a scan makes of the paths that it selects. -/
def finish (scan : Scan) (found : List Path) : Work (List Path) := do
  let sorted := found.mergeSort fun left right => scan.below left ≤ scan.below right
  report [.filesMatched sorted.length scan.root.render]
  return sorted

theorem dumps_eq {scan : Scan} (noSlash : '/' ∉ scan.suffix.toList)
    (noStar : '*' ∉ scan.suffix.toList) :
    scan.dumps =
      (Selection.readIgnoreFiles scan.root scan.scope scan.reader >>= scan.selected) >>=
        scan.finish := by
  rw [dumps, bind_assoc]
  simp only [parse?_suffix noSlash noStar, selected, bind_assoc]
  rfl

theorem looks_selected (scan : Scan) (files : List IgnoreRules) : (scan.selected files).Looks :=
  (looks_selectBelow _ _).bind fun _ => looks_keep (looks_accepts _) _

theorem gives_finish (scan : Scan) (found : List Path) : (scan.finish found).Gives fun _ =>
    .ok (found.mergeSort fun left right => scan.below left ≤ scan.below right) :=
  fun _ _ => ⟨_, rfl⟩

/-- The dumps of a scan are files. -/
theorem found_of_mem_dumps {scan : Scan} {files : List Path} (noSlash : '/' ∉ scan.suffix.toList)
    (noStar : '*' ∉ scan.suffix.toList) (given : scan.dumps.outcome tree = .ok files) :
    ∀ file ∈ files, ∃ bytes, tree.look file = .ok (some (.file bytes)) := by
  rw [dumps_eq noSlash noStar] at given
  obtain ⟨found, given, sorted⟩ := (outcome_bind_eq_ok_iff
    ((looks_readIgnoreFiles _ _ _).bind scan.looks_selected)
      fun _ => (scan.gives_finish _).looks).mp given
  obtain ⟨ignoreFiles, -, given⟩ :=
    (outcome_bind_eq_ok_iff (looks_readIgnoreFiles _ _ _) scan.looks_selected).mp given
  obtain ⟨paths, -, kept⟩ := (outcome_bind_eq_ok_iff (looks_selectBelow _ _)
    fun _ => looks_keep (looks_accepts _) _).mp given
  rw [(scan.gives_finish found).outcome_eq] at sorted
  cases sorted
  intro file member
  exact Selection.exists_look_of_accepts
    (passed_of_mem_keep (looks_accepts _) kept file (List.mem_mergeSort.mp member)).2

end Scan

/-! ## Leaving out another directory -/

/-- No file in a directory of the root that has a given name is called like a dump. -/
def FreeOfDumps (tree : Tree) (place : Place) (suffix name : String) : Prop :=
  ∀ names bytes, (place ++ names, Entry.file bytes) ∈ tree.entries → names.head? = some name →
    Glob.matchesText ("*" ++ suffix) (names.getLast?.getD "") = false

theorem verdict_of_head {selection : Selection} {names : List String}
    (other : names.head? ≠ some selection.outputDir) :
    selection.verdict (selection.root.under names) =
      ((Selection.isIgnored selection.ignoreFiles.1 (selection.root.under names)
        selection.ignoreFiles.2).mapError .ignore).map
          fun ignored => !ignored && selection.takes (Path.render { names }) := by
  rw [Selection.verdict, Path.relativeTo?_under]
  exact if_neg (by simp [other])

/-- Which directory is left out does not matter to paths that lead through others. -/
theorem outcome_accepts_eq {scan : Scan} {files : List IgnoreRules} {names : List String}
    {name other : String} (notName : names.head? ≠ some name) (notOther : names.head? ≠ some other)
    (tree : Tree) :
    (({ scan with outputDir := name }.selection files).accepts
        (scan.root.under names)).outcome tree =
      (({ scan with outputDir := other }.selection files).accepts
        (scan.root.under names)).outcome tree := by
  have same : ({ scan with outputDir := name }.selection files).verdict (scan.root.under names) =
      ({ scan with outputDir := other }.selection files).verdict (scan.root.under names) :=
    (@verdict_of_head ({ scan with outputDir := name }.selection files) names notName).trans
      (@verdict_of_head ({ scan with outputDir := other }.selection files) names notOther).symm
  rw [Selection.outcome_accepts, Selection.outcome_accepts, same]
  rfl

section Elsewhere

variable (wellFormed : tree.WellFormed) (arrives : tree.walk .strict root = .ok place)
include wellFormed arrives

/-- Only a file is a file of its own. -/
theorem exists_of_isOwnFile {names : List String} {entry : Entry} (nonempty : names ≠ [])
    (stands : tree.get? (place ++ names) = some entry)
    (isOwn : (Selection.isOwnFile (root.under names)).outcome tree = .ok true) :
    ∃ bytes, entry = .file bytes := by
  obtain ⟨bytes, found⟩ := Selection.exists_look_of_isOwnFile isOwn
  obtain ⟨spot, leads, -⟩ := Tree.look_eq_some_iff.mp found
  have fine := Tree.fine_of_walk leads
  cases entry with
  | file bytes => exact ⟨bytes, rfl⟩
  | directory =>
      rw [Tree.look_under wellFormed arrives stands (by simp) fine] at found
      cases found
  | link target =>
      rw [Selection.outcome_isOwnFile_link wellFormed arrives nonempty stands fine, found] at isOwn
      cases isOwn

theorem exists_file_of_mem_candidates {pattern : String} {path : Path}
    (directory : tree.get? place = some .directory)
    (member : path ∈ PathPattern.candidates tree pattern root)
    (isOwn : (Selection.isOwnFile path).outcome tree = .ok true) :
    ∃ names bytes, path = root.under names ∧ (place ++ names, Entry.file bytes) ∈ tree.entries ∧
      Glob.matchesText pattern (names.getLast?.getD "") = true := by
  obtain ⟨front, last, entry, rfl, -, listed, fits⟩ :=
    (PathPattern.mem_candidates_iff wellFormed arrives directory).mp member
  obtain ⟨bytes, rfl⟩ := exists_of_isOwnFile wellFormed arrives (by simp)
    (wellFormed.mem_entries_iff.mp listed).2 isOwn
  exact ⟨front ++ [last], bytes, rfl, listed, by rwa [List.getLast?_concat]⟩

theorem outcome_selected_eq {scan : Scan} {name other : String} (sameRoot : scan.root = root)
    (directory : tree.get? place = some .directory)
    (free : FreeOfDumps tree place scan.suffix name)
    (otherFree : FreeOfDumps tree place scan.suffix other) (files : List IgnoreRules) :
    ({ scan with outputDir := name }.selected files).outcome tree =
      ({ scan with outputDir := other }.selected files).outcome tree := by
  subst sameRoot
  rw [Scan.selected, Scan.selected,
    outcome_bind (looks_selectBelow _ _) fun _ => looks_keep (looks_accepts _) _,
    outcome_bind (looks_selectBelow _ _) fun _ => looks_keep (looks_accepts _) _,
    outcome_selectBelow arrives directory]
  refine outcome_keep_congr (looks_accepts _) (looks_accepts _) fun path member => ?_
  by_cases isOwn : (Selection.isOwnFile path).outcome tree = .ok true
  · obtain ⟨names, bytes, rfl, listed, fits⟩ :=
      exists_file_of_mem_candidates wellFormed arrives directory member isOwn
    refine outcome_accepts_eq (fun first => ?_) (fun first => ?_) tree
    · rw [free names bytes listed first] at fits
      cases fits
    · rw [otherFree names bytes listed first] at fits
      cases fits
  · rw [Selection.outcome_accepts, Selection.outcome_accepts]
    cases judged : (Selection.isOwnFile path).outcome tree with
    | error failure => rfl
    | ok own =>
        cases own with
        | true => exact absurd judged isOwn
        | false => rfl

theorem outcome_dumps_eq (scan : Scan) {name other : String} (sameRoot : scan.root = root)
    (directory : tree.get? place = some .directory) (noSlash : '/' ∉ scan.suffix.toList)
    (noStar : '*' ∉ scan.suffix.toList) (free : FreeOfDumps tree place scan.suffix name)
    (otherFree : FreeOfDumps tree place scan.suffix other) :
    ({ scan with outputDir := name }.dumps).outcome tree =
      ({ scan with outputDir := other }.dumps).outcome tree := by
  have shape (name : String) : ({ scan with outputDir := name }.dumps).outcome tree =
      ((Selection.readIgnoreFiles scan.root scan.scope scan.reader).outcome tree >>= fun files =>
        ({ scan with outputDir := name }.selected files).outcome tree) >>= fun found =>
          (scan.finish found).outcome tree := by
    rw [@Scan.dumps_eq { scan with outputDir := name } noSlash noStar,
      outcome_bind ((looks_readIgnoreFiles _ _ _).bind (Scan.looks_selected _)) fun _ =>
        (Scan.gives_finish _ _).looks,
      outcome_bind (looks_readIgnoreFiles _ _ _) (Scan.looks_selected _)]
    rfl
  have same : (fun files => ({ scan with outputDir := name }.selected files).outcome tree) =
      fun files => ({ scan with outputDir := other }.selected files).outcome tree :=
    funext (@outcome_selected_eq _ _ _ wellFormed arrives scan name other sameRoot directory free
      otherFree)
  rw [shape, shape, same]

/-- It does not matter which of two directories is left out if no dump stands in either. -/
theorem outcome_buildProject_eq {settings : Settings} {name other : String}
    (directory : tree.get? place = some .directory)
    (noSlash : '/' ∉ settings.dumpSuffix.toList) (noStar : '*' ∉ settings.dumpSuffix.toList)
    (free : FreeOfDumps tree place settings.dumpSuffix name)
    (otherFree : FreeOfDumps tree place settings.dumpSuffix other) :
    (buildProject root settings name reader).outcome tree =
      (buildProject root settings other reader).outcome tree := by
  have goesOn (files : List Path) : (do
      report [.filesFound files.length root.render]
      let table ← buildFromFiles root settings.dumpSuffix files
      report [.tableBuilt table.size]
      return table : Work Table).Looks :=
    (looks_report _).bind fun _ => (looks_buildFromFiles _ _ _).bind fun _ =>
      (looks_report _).bind fun _ => looks_pure _
  let scan : Scan :=
    { root
      suffix := settings.dumpSuffix
      included := settings.included
      excluded := settings.excluded
      scope := if settings.nestedIgnore then .nested else .rootOnly
      reader }
  have same := outcome_dumps_eq wellFormed arrives scan rfl directory noSlash noStar free otherFree
  rw [buildProject, buildProject, outcome_bind (looks_dumps _) goesOn,
    outcome_bind (looks_dumps _) goesOn]
  exact congrArg (· >>= _) same

end Elsewhere

/-! ### After a tree has grown -/

section Aside

variable (aside : tree.GrowsAside after root place name added)
include aside

theorem agrees_isFile_ignoreFile : (isFile (root.child ignoreFileName)).Agrees tree after := by
  have proper : Tree.IsProper ignoreFileName := by decide
  change (isFile (root.under [ignoreFileName])).Agrees tree after
  cases stood : tree.get? (place ++ [ignoreFileName]) with
  | some entry =>
      rw [Agrees, Selection.outcome_isFile, Selection.outcome_isFile]
      by_cases isLink : ∃ target, entry = .link target
      · obtain ⟨target, rfl⟩ := isLink
        have looks := aside.links.ignoring target (aside.link_mem_below (by simp) stood)
        rw [show root.under [ignoreFileName] = root.child ignoreFileName from rfl, looks]
      · rw [aside.look_eq stood fun target same => isLink ⟨target, same⟩]
  | none =>
      rw [Agrees, Selection.outcome_isFile, Selection.outcome_isFile]
      cases flawed : Tree.flaw? (root.under [ignoreFileName]) with
      | some error => rw [Tree.look_of_flaw after flawed, Tree.look_of_flaw tree flawed]
      | none =>
          rw [Tree.look_under_absent aside.arrives aside.directory proper stood flawed]
          cases stands : after.get? (place ++ [ignoreFileName]) with
          | none =>
              rw [Tree.look_under_absent aside.arrivesAgain (aside.grows.stays aside.directory)
                proper stands flawed]
          | some entry =>
              have member := aside.grows.mem_added stood stands
              rw [aside.look_added member, aside.unignoring _ entry member rfl]
              rfl

theorem agrees_ignoreFilesBelow : (Selection.ignoreFilesBelow root).Agrees tree after := by
  rw [Agrees, outcome_ignoreFilesBelow, outcome_ignoreFilesBelow,
    Tree.below_eq_listingAt aside.arrives, Tree.below_eq_listingAt aside.arrivesAgain,
    Tree.listingAt_of_grows aside.grows, List.map_append, List.filter_append]
  rw [outcome_keep_append looks_isOwnFile]
  · intro path member
    obtain ⟨⟨path, entry⟩, listed, rfl⟩ := List.mem_map.mp (List.mem_filter.mp member).1
    obtain ⟨names, nonempty, rfl, stands⟩ := Tree.mem_listingAt_iff.mp listed
    exact Selection.isOwnFile_of_stood aside nonempty
      (aside.wellFormed.mem_entries_iff.mp stands).2
  · intro path member
    obtain ⟨listed, named⟩ := List.mem_filter.mp member
    obtain ⟨⟨path, entry⟩, shown, rfl⟩ := List.mem_map.mp listed
    obtain ⟨names, nonempty, rfl, stands⟩ := Tree.mem_listingAt_iff.mp shown
    have last : names.getLast? = some ignoreFileName := by
      rw [beq_iff_eq, Path.name, Path.under, List.getLast?_append_of_ne_nil _ nonempty,
        List.getLast?_eq_some_getLast nonempty, Option.getD_some] at named
      rw [List.getLast?_eq_some_getLast nonempty, named]
    rw [Selection.isOwnFile_of_added aside stands, aside.unignoring _ entry stands last]
    rfl

theorem agrees_readIgnoreFiles (scope : IgnoreScope) (reader : IgnoreReader) :
    (Selection.readIgnoreFiles root scope reader).Agrees tree after := by
  have again {path : Path} {bytes : ByteArray}
      (found : tree.look path = .ok (some (.file bytes))) :
      (Selection.readIgnoreFile reader path).Agrees tree after := by
    obtain ⟨read, again⟩ := Tree.read_of_look aside.grows found
    exact agrees_readIgnoreFile (again.trans read.symm)
  cases scope with
  | rootOnly =>
      refine (agrees_isFile_ignoreFile aside).bind (looks_isFile _) (fun present =>
        looks_ite ((looks_readIgnoreFile _ _).bind fun _ => looks_pure _) (looks_pure _))
          fun present given => ?_
      cases present with
      | false => exact agrees_pure []
      | true =>
          obtain ⟨bytes, found⟩ := Selection.exists_look_of_isFile given
          exact (again found).bind (looks_readIgnoreFile _ _) (fun _ => looks_pure _)
            fun _ _ => agrees_pure _
  | nested =>
      refine (agrees_ignoreFilesBelow aside).bind (looks_ignoreFilesBelow root)
        (looks_mapM (looks_readIgnoreFile _)) fun files given => ?_
      refine agrees_mapM (looks_readIgnoreFile _) fun file member => ?_
      obtain ⟨bytes, found⟩ := found_of_mem_ignoreFilesBelow given file member
      exact again found

theorem agrees_selected {scan : Scan} (sameRoot : scan.root = root)
    (leftOut : scan.outputDir = name) (named : name ≠ "") (files : List IgnoreRules) :
    (scan.selected files).Agrees tree after := by
  have keeps (paths : List Path) : (keep (scan.selection files).accepts paths).Looks :=
    looks_keep (looks_accepts _) paths
  rw [Agrees, Scan.selected, outcome_bind (looks_selectBelow _ _) keeps,
    outcome_bind (looks_selectBelow _ _) keeps, sameRoot,
    outcome_selectBelow aside.arrives aside.directory,
    outcome_selectBelow aside.arrivesAgain (aside.grows.stays aside.directory),
    ← PathPattern.candidates_of_aside aside]
  refine outcome_keep_of_filter (looks_accepts _) (looks_accepts _)
    (PathPattern.stood tree root place) ?_ ?_
  · intro path member old
    obtain ⟨names, entry, nonempty, rfl, -⟩ := PathPattern.exists_of_mem_candidates aside.growsWell
      aside.arrivesAgain (aside.grows.stays aside.directory) member
    rw [PathPattern.stood_under] at old
    obtain ⟨entry, stood⟩ := Option.isSome_iff_exists.mp old
    exact Selection.accepts_of_stood aside sameRoot nonempty stood
  · intro path member new
    obtain ⟨names, entry, nonempty, rfl, stands⟩ := PathPattern.exists_of_mem_candidates
      aside.growsWell aside.arrivesAgain (aside.grows.stays aside.directory) member
    rw [PathPattern.stood_under, Option.isSome_eq_false_iff, Option.isNone_iff_eq_none] at new
    exact Selection.accepts_of_added aside sameRoot leftOut named
      (aside.grows.mem_added new (aside.growsWell.mem_entries_iff.mp stands).2)

/-- A scan finds the same dumps. -/
theorem agrees_dumps {scan : Scan} (sameRoot : scan.root = root) (leftOut : scan.outputDir = name)
    (named : name ≠ "") (noSlash : '/' ∉ scan.suffix.toList)
    (noStar : '*' ∉ scan.suffix.toList) : scan.dumps.Agrees tree after := by
  have selects :
      (Selection.readIgnoreFiles scan.root scan.scope scan.reader >>= scan.selected).Agrees
        tree after := by
    refine Agrees.bind ?_ (looks_readIgnoreFiles _ _ _) scan.looks_selected fun files _ =>
      agrees_selected aside sameRoot leftOut named files
    rw [sameRoot]
    exact agrees_readIgnoreFiles aside _ _
  rw [Scan.dumps_eq noSlash noStar]
  exact selects.bind ((looks_readIgnoreFiles _ _ _).bind scan.looks_selected)
    (fun _ => (scan.gives_finish _).looks) fun _ _ => (scan.gives_finish _).agrees rfl

/-- The table of a project is the same. -/
theorem agrees_buildProject {settings : Settings} (named : name ≠ "")
    (noSlash : '/' ∉ settings.dumpSuffix.toList) (noStar : '*' ∉ settings.dumpSuffix.toList) :
    (buildProject root settings name reader).Agrees tree after := by
  refine (agrees_dumps aside rfl rfl named noSlash noStar).bind (looks_dumps _) (fun _ => ?_)
    fun files given => ?_
  · exact (looks_report _).bind fun _ => (looks_buildFromFiles _ _ _).bind fun _ =>
      (looks_report _).bind fun _ => looks_pure _
  · have found := Scan.found_of_mem_dumps noSlash noStar given
    refine (agrees_report _).bind (looks_report _) (fun _ => ?_) fun _ _ => ?_
    · exact (looks_buildFromFiles _ _ _).bind fun _ => (looks_report _).bind fun _ => looks_pure _
    · refine (agrees_buildFromFiles root _ aside.grows found).bind (looks_buildFromFiles _ _ _)
        (fun _ => (looks_report _).bind fun _ => looks_pure _) fun _ _ => ?_
      exact (agrees_report _).bind (looks_report _) (fun _ => looks_pure _) fun _ _ => agrees_pure _

end Aside

end CallGraph
