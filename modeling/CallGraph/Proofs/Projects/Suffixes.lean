import CallGraph.Dump.Origin
import CallGraph.Proofs.Projects.Verification
import CallGraph.Proofs.ShellPatterns
import CallGraph.Proofs.Sorting

/-!
# The suffix of dumps

A scan puts a star before the suffix and takes the names that this shell pattern fits, and the
origin of a dump is its path without the suffix as it is written.  The two are at one on every name
exactly if the suffix is plain.  The settings refuse a star and a slash in a suffix, but neither a
question mark nor brackets.
-/

namespace CallGraph

open Work

variable {tree : Tree} {scan : Scan} {place : Place} {files : List IgnoreRules}
  {names others front : List String} {last suffix : String} {path : Path}

/-! ## Paths as texts -/

theorem Path.render_names (nonempty : names ≠ []) :
    Path.render { names } = "/".intercalate names := by
  simp [render, nonempty]

/-- Names that are written with slashes between them are told apart by what is written. -/
theorem Path.names_inj (nonempty : names ≠ []) (slashless : ∀ name ∈ names, '/' ∉ name.toList)
    (otherNonempty : others ≠ []) (otherSlashless : ∀ name ∈ others, '/' ∉ name.toList)
    (same : Path.render { names } = Path.render { names := others }) : names = others := by
  have cut {names : List String} (nonempty : names ≠ [])
      (slashless : ∀ name ∈ names, '/' ∉ name.toList) :
      (Path.render { names }).toList.splitOn '/' = names.map String.toList := by
    rw [render_names nonempty, String.toList_intercalate]
    refine List.splitOn_intercalate '/' (fun letters member => ?_) (by simpa using nonempty)
    obtain ⟨name, listed, rfl⟩ := List.mem_map.mp member
    exact slashless name listed
  have parts := congrArg (fun text : String => text.toList.splitOn '/') same
  rw [cut nonempty slashless, cut otherNonempty otherSlashless] at parts
  exact List.map_injective_iff.mpr (fun _ _ => String.toList_inj.mp) parts

theorem suffix_append_iff {separator : Char} {ending before last : List Char}
    (free : separator ∉ ending) :
    ending <:+ before ++ separator :: last ↔ ending <:+ last := by
  have whole : separator :: last <:+ before ++ separator :: last := List.suffix_append _ _
  constructor
  · intro ends
    rcases List.suffix_or_suffix_of_suffix ends whole with short | long
    · rcases List.suffix_cons_iff.mp short with rfl | short
      · exact absurd List.mem_cons_self free
      · exact short
    · exact absurd (long.subset List.mem_cons_self) free
  · exact fun ends => (ends.trans (List.suffix_cons _ _)).trans whole

/-- A path ends with a text without slash exactly if its last name does. -/
theorem suffix_render_iff (noSlash : '/' ∉ suffix.toList) (front : List String) (last : String) :
    suffix.toList <:+ (Path.render { names := front ++ [last] }).toList ↔
      suffix.toList <:+ last.toList := by
  rw [Path.render_names (by simp)]
  by_cases alone : front = []
  · subst alone
    rfl
  · rw [String.intercalate_append_of_ne_nil alone (List.cons_ne_nil _ _),
      String.intercalate_singleton, String.toList_append, String.toList_append,
      List.append_assoc]
    exact suffix_append_iff noSlash

/-! ## Origins -/

namespace Dump

theorem dropSuffix_append (stem ending : List Char) :
    dropSuffix ending (stem ++ ending) = stem := by
  rw [dropSuffix, if_pos (List.isSuffixOf_iff_suffix.mpr (List.suffix_append _ _)),
    List.length_append, Nat.add_sub_cancel, List.take_left]

theorem dropSuffix_of_not_suffix {ending letters : List Char} (other : ¬ ending <:+ letters) :
    dropSuffix ending letters = letters :=
  if_neg fun ends => other (List.isSuffixOf_iff_suffix.mp ends)

end Dump

namespace Scan

/-- The path of a dump as its origin is made from it: below the root, if that is absolute. -/
def shown (scan : Scan) (path : Path) : String :=
  if scan.root.isAbsolute then scan.below path else path.render

theorem below_under (scan : Scan) (names : List String) :
    scan.below (scan.root.under names) = Path.render { names } := by
  rw [below, Path.relativeTo?_under, Option.getD_some]

theorem exists_shown_under (scan : Scan) (names : List String) :
    ∃ above, scan.shown (scan.root.under names) = Path.render { names := above ++ names } := by
  rw [shown]
  split
  · exact ⟨[], scan.below_under names⟩
  · next relative =>
      refine ⟨scan.root.names, ?_⟩
      rw [Path.under, show scan.root.anchor = "" by simpa [Path.isAbsolute] using relative]

theorem originOf_eq (scan : Scan) (names : List String) (suffix : String) :
    Dump.originOf (scan.root.under names) scan.root suffix =
      String.ofList (Dump.dropPassTag
        (Dump.dropSuffix suffix.toList (scan.shown (scan.root.under names)).toList)) := by
  have isAbsolute : (scan.root.under names).isAbsolute = scan.root.isAbsolute := rfl
  rw [Dump.originOf, shown, isAbsolute, below]
  split <;> rfl

/-- The origin of a dump is made from what its path has before the suffix, if the name ends with it,
and otherwise from the whole path. -/
def DropsSuffix (scan : Scan) (path : Path) : Prop :=
  if scan.suffix.toList <:+ path.name.toList then
    ∃ stem, scan.shown path = stem ++ scan.suffix ∧
      Dump.originOf path scan.root scan.suffix = String.ofList (Dump.dropPassTag stem.toList)
  else
    Dump.originOf path scan.root scan.suffix =
      String.ofList (Dump.dropPassTag (scan.shown path).toList)

theorem dropsSuffix_under (noSlash : '/' ∉ scan.suffix.toList) (front : List String)
    (last : String) : scan.DropsSuffix (scan.root.under (front ++ [last])) := by
  obtain ⟨above, shown⟩ := scan.exists_shown_under (front ++ [last])
  rw [← List.append_assoc] at shown
  have whole := suffix_render_iff noSlash (above ++ front) last
  rw [← shown] at whole
  rw [DropsSuffix, Path.name_under, originOf_eq]
  split
  · next ends =>
      obtain ⟨stem, letters⟩ := whole.mpr ends
      refine ⟨String.ofList stem, ?_, ?_⟩
      · rw [← String.toList_inj, String.toList_append, String.toList_ofList, letters]
      · rw [← letters, Dump.dropSuffix_append, String.toList_ofList]
  · next other => rw [Dump.dropSuffix_of_not_suffix (whole.not.mpr other)]

end Scan

/-! ## What is found -/

theorem Tree.mem_below_iff {root : Path} {entry : Entry}
    (arrives : tree.walk .strict root = .ok place) :
    (path, entry) ∈ tree.below root ↔ ∃ front last, path = root.under (front ++ [last]) ∧
      (place ++ (front ++ [last]), entry) ∈ tree.entries := by
  rw [below_eq_listingAt arrives, mem_listingAt_iff]
  constructor
  · rintro ⟨names, nonempty, rfl, stands⟩
    obtain ⟨front, last, rfl⟩ := (List.eq_nil_or_concat' names).resolve_left nonempty
    exact ⟨front, last, rfl, stands⟩
  · rintro ⟨front, last, rfl, stands⟩
    exact ⟨front ++ [last], by simp, rfl, stands⟩

namespace Scan

/-- A scan is over exactly if the ignore files are read and every path with a fitting name is
judged.  Then it has the accepted ones in the order of their texts. -/
theorem outcome_dumps_eq_ok_iff (noSlash : '/' ∉ scan.suffix.toList)
    (noStar : '*' ∉ scan.suffix.toList) (arrives : tree.walk .strict scan.root = .ok place)
    (directory : tree.get? place = some .directory) {dumps : List Path} :
    scan.dumps.outcome tree = .ok dumps ↔ ∃ files,
      (Selection.readIgnoreFiles scan.root scan.scope scan.reader).outcome tree = .ok files ∧
        (∀ path ∈ PathPattern.candidates tree ("*" ++ scan.suffix) scan.root, ∃ verdict,
          ((scan.selection files).accepts path).outcome tree = .ok verdict) ∧
        dumps = ((PathPattern.candidates tree ("*" ++ scan.suffix) scan.root).filter
          (passes (scan.selection files).accepts tree)).mergeSort
            fun left right => decide (scan.below left ≤ scan.below right) := by
  have selects (files : List IgnoreRules) : (scan.selected files).outcome tree =
      (keep (scan.selection files).accepts
        (PathPattern.candidates tree ("*" ++ scan.suffix) scan.root)).outcome tree := by
    rw [selected, outcome_bind (looks_selectBelow _ _) fun _ => looks_keep (looks_accepts _) _,
      outcome_selectBelow arrives directory]
    rfl
  rw [dumps_eq noSlash noStar, outcome_bind_eq_ok_iff
    ((looks_readIgnoreFiles _ _ _).bind scan.looks_selected) fun _ => (scan.gives_finish _).looks]
  simp only [(scan.gives_finish _).outcome_eq,
    outcome_bind_eq_ok_iff (looks_readIgnoreFiles _ _ _) scan.looks_selected, selects,
    outcome_keep_eq_ok_iff (looks_accepts _)]
  constructor
  · rintro ⟨found, ⟨files, read, judged, rfl⟩, sorted⟩
    exact ⟨files, read, judged, (Except.ok.inj sorted).symm⟩
  · rintro ⟨files, read, judged, rfl⟩
    exact ⟨_, ⟨files, read, judged, rfl⟩, rfl⟩

end Scan

/-- What a scan of a tree finds, with some ignore files, if it asks for some names. -/
structure Scan.Finds (scan : Scan) (tree : Tree) (files : List IgnoreRules) (called : String → Prop)
    (dumps : List Path) : Prop where
  /-- Each dump comes once, and in the order of the texts of the paths below the root. -/
  ordered : (dumps.map scan.below).Pairwise (· < ·)
  /-- The dumps are the accepted paths below the root with names that are asked for. -/
  exact : ∀ path, path ∈ dumps ↔ (∃ entry, (path, entry) ∈ tree.below scan.root) ∧
    called path.name ∧ ((scan.selection files).accepts path).outcome tree = .ok true

/-- No name in a tree holds the character that divides names in a path. -/
def Tree.Slashless (tree : Tree) : Prop :=
  ∀ other ∈ tree.entries, ∀ name ∈ other.1, '/' ∉ name.toList

theorem nodup_eraseDups {α : Type} [BEq α] [LawfulBEq α] (items : List α) :
    items.eraseDups.Nodup := by
  cases items with
  | nil => exact .nil
  | cons first others =>
      have shorter := List.length_filter_le (fun other => !other == first) others
      rw [List.eraseDups_cons, List.nodup_cons]
      exact ⟨by simp, nodup_eraseDups _⟩
termination_by items.length
decreasing_by simp; omega

namespace Scan

variable (wellFormed : tree.WellFormed) (arrives : tree.walk .strict scan.root = .ok place)
  (directory : tree.get? place = some .directory)
include wellFormed arrives directory

/-- Two paths below the root that are found are told apart by their texts. -/
theorem below_inj (slashless : tree.Slashless) {pattern : String} {path other : Path}
    (member : path ∈ PathPattern.candidates tree pattern scan.root)
    (otherMember : other ∈ PathPattern.candidates tree pattern scan.root)
    (same : scan.below path = scan.below other) : path = other := by
  have along {path : Path} (member : path ∈ PathPattern.candidates tree pattern scan.root) :
      ∃ names, names ≠ [] ∧ path = scan.root.under names ∧ ∀ name ∈ names, '/' ∉ name.toList := by
    obtain ⟨names, entry, nonempty, rfl, stands⟩ :=
      PathPattern.exists_of_mem_candidates wellFormed arrives directory member
    exact ⟨names, nonempty, rfl, fun name inside =>
      slashless _ stands name (List.mem_append_right _ inside)⟩
  obtain ⟨names, nonempty, rfl, free⟩ := along member
  obtain ⟨others, otherNonempty, rfl, otherFree⟩ := along otherMember
  rw [below_under, below_under] at same
  rw [Path.names_inj nonempty free otherNonempty otherFree same]

/-- Paths that are found once each are sorted in strictly increasing order. -/
theorem pairwise_below (slashless : tree.Slashless) {pattern : String} {found : List Path}
    (distinct : found.Nodup)
    (candidates : ∀ path ∈ found, path ∈ PathPattern.candidates tree pattern scan.root) :
    ((found.mergeSort fun left right => decide (scan.below left ≤ scan.below right)).map
      scan.below).Pairwise (· < ·) := by
  have sorted := (orders_texts.comap scan.below).pairwise_mergeSort found
  have apart := (List.mergeSort_perm found fun left right =>
    decide (scan.below left ≤ scan.below right)).nodup_iff.mpr distinct
  rw [List.pairwise_map]
  refine (sorted.and apart).imp_of_mem fun {left right} first second ⟨le, different⟩ => ?_
  refine Std.lt_of_le_of_ne (of_decide_eq_true le) fun same => different ?_
  exact below_inj wellFormed arrives directory slashless
    (candidates left (List.mem_mergeSort.mp first))
    (candidates right (List.mem_mergeSort.mp second)) same

/-- A path with a fitting name that is accepted is not too long to be found. -/
theorem mem_accepted_iff {selection : Selection} {pattern : String} :
    path ∈ (PathPattern.candidates tree pattern scan.root).filter
        (passes selection.accepts tree) ↔
      (∃ entry, (path, entry) ∈ tree.below scan.root) ∧
        Glob.matchesText pattern path.name = true ∧
        (selection.accepts path).outcome tree = .ok true := by
  rw [List.mem_filter, passes_eq_true_iff,
    PathPattern.mem_candidates_iff wellFormed arrives directory]
  simp only [Tree.mem_below_iff arrives]
  constructor
  · rintro ⟨⟨front, last, entry, rfl, -, stands, fits⟩, accepted⟩
    exact ⟨⟨entry, front, last, rfl, stands⟩, by rwa [Path.name_under], accepted⟩
  · rintro ⟨⟨entry, front, last, rfl, stands⟩, fits, accepted⟩
    obtain ⟨bytes, found⟩ := Selection.exists_look_of_accepts accepted
    obtain ⟨spot, leads, -⟩ := Tree.look_eq_some_iff.mp found
    have fine := Tree.fine_of_walk leads
    rw [← Path.child_under] at fine
    rw [Path.name_under] at fits
    exact ⟨⟨front, last, entry, rfl, Tree.flaw?_of_child fine, stands, fits⟩, accepted⟩

theorem finds_candidates (slashless : tree.Slashless) (files : List IgnoreRules)
    (pattern : String) :
    scan.Finds tree files (fun name => Glob.matchesText pattern name = true)
      (((PathPattern.candidates tree pattern scan.root).filter
        (passes (scan.selection files).accepts tree)).mergeSort
          fun left right => decide (scan.below left ≤ scan.below right)) where
  ordered := pairwise_below wellFormed arrives directory slashless
    ((nodup_eraseDups _).sublist List.filter_sublist)
    fun _ member => (List.mem_filter.mp member).1
  exact _ := List.mem_mergeSort.trans (mem_accepted_iff wellFormed arrives directory)

omit wellFormed directory in
/-- Names below the root that are called alike are found alike. -/
theorem Finds.congr {called other : String → Prop} {dumps : List Path}
    (finds : scan.Finds tree files called dumps) (slashless : tree.Slashless)
    (same : ∀ name, '/' ∉ name.toList → (called name ↔ other name)) :
    scan.Finds tree files other dumps where
  ordered := finds.ordered
  exact path := by
    rw [finds.exact path]
    refine and_congr_right fun ⟨entry, below⟩ => and_congr_left fun _ => same _ ?_
    obtain ⟨front, last, rfl, stands⟩ := (Tree.mem_below_iff arrives).mp below
    rw [Path.name_under]
    exact slashless _ stands last (by simp)

end Scan

/-! ## Selection and origin -/

/-- With a suffix that the settings let through, a scan is over as soon as the ignore files are read
and the paths with fitting names are judged.  It has found, each once and in strictly increasing
order, the accepted files with names that the shell pattern of the suffix fits, while an origin is
without the suffix only if the name ends with it as it is written.  The two are at one on all names
exactly if the suffix is plain, and then the dumps are the accepted files with names that end with
the suffix.  How ignore files are read does not matter. -/
theorem Scan.dumps_exact {data : Data} {settings : Settings}
    (valid : Settings.ofData data = .ok settings) (suffixed : scan.suffix = settings.dumpSuffix)
    (wellFormed : tree.WellFormed) (slashless : tree.Slashless)
    (arrives : tree.walk .strict scan.root = .ok place)
    (directory : tree.get? place = some .directory)
    (read : (Selection.readIgnoreFiles scan.root scan.scope scan.reader).outcome tree = .ok files)
    (judged : ∀ path entry, (path, entry) ∈ tree.below scan.root →
      Glob.matchesText ("*" ++ scan.suffix) path.name = true →
        ∃ verdict, ((scan.selection files).accepts path).outcome tree = .ok verdict) :
    ∃ dumps, scan.dumps.outcome tree = .ok dumps ∧
      scan.Finds tree files (fun name => Glob.matchesText ("*" ++ scan.suffix) name = true) dumps ∧
      (∀ path ∈ dumps, scan.DropsSuffix path) ∧
      (Glob.IsPlain scan.suffix.toList ↔ ∀ name : String, '/' ∉ name.toList →
        (Glob.matchesText ("*" ++ scan.suffix) name = true ↔
          scan.suffix.toList <:+ name.toList)) ∧
      (Glob.IsPlain scan.suffix.toList →
        scan.Finds tree files (fun name => scan.suffix.toList <:+ name.toList) dumps ∧
          ∀ path ∈ dumps, ∃ stem, scan.shown path = stem ++ scan.suffix ∧
            Dump.originOf path scan.root scan.suffix =
              String.ofList (Dump.dropPassTag stem.toList)) := by
  obtain ⟨noSlash, noStar⟩ := Settings.free_of_ofData valid
  rw [← suffixed] at noSlash noStar
  have plain := Glob.isPlain_iff noStar noSlash
  have finds := finds_candidates wellFormed arrives directory slashless files ("*" ++ scan.suffix)
  have ended := (outcome_dumps_eq_ok_iff noSlash noStar arrives directory).mpr
    ⟨files, read, fun path member => by
      obtain ⟨front, last, entry, rfl, -, stands, fits⟩ :=
        (PathPattern.mem_candidates_iff wellFormed arrives directory).mp member
      exact judged _ entry ((Tree.mem_below_iff arrives).mpr ⟨front, last, rfl, stands⟩)
        (by rwa [Path.name_under]), rfl⟩
  generalize ((PathPattern.candidates tree ("*" ++ scan.suffix) scan.root).filter _).mergeSort _ =
    dumps at finds ended
  have drops : ∀ path ∈ dumps, scan.DropsSuffix path := by
    intro path member
    obtain ⟨⟨entry, below⟩, -, -⟩ := (finds.exact path).mp member
    obtain ⟨front, last, rfl, -⟩ := (Tree.mem_below_iff arrives).mp below
    exact dropsSuffix_under noSlash front last
  refine ⟨dumps, ended, finds, drops, plain, fun isPlain => ?_⟩
  have literal := Finds.congr arrives finds slashless (plain.mp isPlain)
  refine ⟨literal, fun path member => ?_⟩
  have drop := drops path member
  rwa [DropsSuffix, if_pos ((literal.exact path).mp member).2.1] at drop

/-- A project in `/p` with two dumps.  The one has a name that the suffix `.c[g]raph` fits, the
other a name that ends with it. -/
def markedProject : Tree := plainProject.put ["p", "g.c.c[g]raph"] selfCall

/-- A scan of the project for this suffix. -/
def markedScan : Scan := { root := ⟨"/", ["p"]⟩, suffix := ".c[g]raph" }

theorem wellFormed_markedProject : markedProject.WellFormed :=
  @Tree.WellFormed.put _ ["p"] _ "g.c.c[g]raph" wellFormed_plainProject rfl (by decide) rfl
    selfCall_ne_link

/-- The settings let the suffix through.  The scan finds the dump with the other name, whose origin
keeps it, and not the one with a name that ends with the suffix. -/
theorem Scan.dumps_markedProject :
    Settings.ofData (.object [("dump_suffix", .text ".c[g]raph")]) =
        .ok { dumpSuffix := ".c[g]raph" } ∧
      ∃ dumps, markedScan.dumps.outcome markedProject = .ok dumps ∧
        ⟨"/", ["p", "f.c.cgraph"]⟩ ∈ dumps ∧ ⟨"/", ["p", "g.c.c[g]raph"]⟩ ∉ dumps ∧
        Dump.originOf ⟨"/", ["p", "f.c.cgraph"]⟩ markedScan.root markedScan.suffix =
          "f.c.cgraph" := by
  have valid : Settings.ofData (.object [("dump_suffix", .text ".c[g]raph")]) =
      .ok { dumpSuffix := ".c[g]raph" } := rfl
  have slashless : markedProject.Slashless := by
    unfold Tree.Slashless
    decide
  have below : markedProject.below markedScan.root =
      [(⟨"/", ["p", "f.c.cgraph"]⟩, selfCall), (⟨"/", ["p", "g.c.c[g]raph"]⟩, selfCall)] := rfl
  have accepted : ∀ path entry, (path, entry) ∈ markedProject.below markedScan.root →
      ((markedScan.selection []).accepts path).outcome markedProject = .ok true := by
    intro path entry member
    rw [below, List.mem_cons, List.mem_singleton] at member
    rcases member with same | same
    · cases same
      rfl
    · cases same
      rfl
  obtain ⟨dumps, ended, finds, -, -, -⟩ := Scan.dumps_exact valid rfl wellFormed_markedProject
    slashless rfl rfl rfl fun path entry member _ => ⟨true, accepted path entry member⟩
  have fits : Glob.matchesText "*.c[g]raph" "f.c.cgraph" = true := by cbv
  have misfits : Glob.matchesText "*.c[g]raph" "g.c.c[g]raph" = false := by cbv
  refine ⟨valid, dumps, ended, (finds.exact _).mpr ⟨⟨selfCall, ?_⟩, fits, ?_⟩, fun found => ?_, ?_⟩
  · exact below ▸ List.mem_cons_self
  · exact accepted _ selfCall (below ▸ List.mem_cons_self)
  · have fitted := ((finds.exact _).mp found).2.1
    exact absurd (misfits.symm.trans fitted) (by decide)
  · decide

end CallGraph
