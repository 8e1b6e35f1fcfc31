import CallGraph.Proofs.Looking
import CallGraph.Proofs.Trees.Listing
import CallGraph.Proofs.Trees.RealPath
import Mathlib.Data.List.Basic

/-!
# Selecting in a tree that has grown

A tree that has grown in a directory that a scan leaves out, or outside the root, gives the scan
more paths to judge.  It judges the old ones as it did and accepts none of the new ones.
-/

namespace CallGraph

/-! ## Growing aside -/

/-- What has come to stand somewhere does not matter to the links below a root: the ignore file of
the root, if it is a link, leads where it led, and no other link comes to lead along a name that is
too long. -/
structure Tree.KeepsLinks (tree after : Tree) (root : Path) : Prop where
  /-- The ignore file of the root leads where it led. -/
  ignoring : ∀ target, (root.child ignoreFileName, Entry.link target) ∈ tree.below root →
    after.look (root.child ignoreFileName) = tree.look (root.child ignoreFileName)
  /-- No link leads along a name that is too long, unless it did so before. -/
  short : ∀ path target error, (path, Entry.link target) ∈ tree.below root →
    after.look path = .error error → tree.look path = .error error

/-- A tree has grown where a scan of a root does not look: outside the root, or in a directory of
the root that has a given name. -/
structure Tree.GrowsAside (tree after : Tree) (root : Path) (place : Place) (name : String)
    (added : List (Place × Entry)) : Prop where
  /-- The tree was well-formed. -/
  wellFormed : tree.WellFormed
  /-- The tree is still well-formed. -/
  growsWell : after.WellFormed
  /-- It has grown. -/
  grows : tree.GrowsTo after added
  /-- The root leads to a place. -/
  arrives : tree.walk .strict root = .ok place
  /-- A directory stands there. -/
  directory : tree.get? place = some .directory
  /-- No links were added. -/
  unlinked : ∀ other ∈ added, ∀ target, other.2 ≠ .link target
  /-- What was added below the root stands in the directory of the name, or is that directory. -/
  inside : ∀ names entry, (place ++ names, entry) ∈ added → names.head? = some name
  /-- The paths to what was added below the root are not too long. -/
  short : ∀ names entry, (place ++ names, entry) ∈ added → Tree.flaw? (root.under names) = none
  /-- No ignore file was added. -/
  unignoring : ∀ names entry, (place ++ names, entry) ∈ added →
    names.getLast? = some ignoreFileName → entry = .directory
  /-- It does not matter to the links below the root. -/
  links : tree.KeepsLinks after root

namespace Tree.GrowsAside

variable {tree after : Tree} {root : Path} {place : Place} {name : String}
  {added : List (Place × Entry)} {names : List String} {entry : Entry}
  (aside : tree.GrowsAside after root place name added)
include aside

theorem arrivesAgain : after.walk .strict root = .ok place :=
  walk_of_grows_ok aside.grows aside.arrives

/-- What is under an old path looks as it did, apart from links. -/
theorem look_eq (stood : tree.get? (place ++ names) = some entry)
    (unlinked : ∀ target, entry ≠ .link target) :
    after.look (root.under names) = tree.look (root.under names) := by
  cases flawed : flaw? (root.under names) with
  | some error => rw [look_of_flaw after flawed, look_of_flaw tree flawed]
  | none =>
      rw [look_under aside.wellFormed aside.arrives stood unlinked flawed,
        look_under aside.growsWell aside.arrivesAgain (aside.grows.stays stood) unlinked flawed]

theorem link_mem_below {target : Path} (nonempty : names ≠ [])
    (stood : tree.get? (place ++ names) = some (.link target)) :
    (root.under names, Entry.link target) ∈ tree.below root := by
  rw [below_eq_listingAt aside.arrives, mem_listingAt_iff]
  exact ⟨names, nonempty, rfl, aside.wellFormed.mem_entries_iff.mpr ⟨by simp [nonempty], stood⟩⟩

theorem isLink_eq (nonempty : names ≠ []) (stood : tree.get? (place ++ names) = some entry) :
    after.isLink (root.under names) = tree.isLink (root.under names) := by
  cases flawed : flaw? (root.under names) with
  | some error => rw [isLink_of_flaw after flawed, isLink_of_flaw tree flawed]
  | none =>
      rw [isLink_under aside.wellFormed aside.arrives nonempty stood flawed,
        isLink_under aside.growsWell aside.arrivesAgain nonempty (aside.grows.stays stood) flawed]

theorem stands_of_added (member : (place ++ names, entry) ∈ added) :
    after.get? (place ++ names) = some entry := by
  refine (aside.growsWell.mem_entries_iff.mp ?_).2
  rw [aside.grows.entries]
  exact List.mem_append_right _ member

/-- What is under a new path is what was added. -/
theorem look_added (member : (place ++ names, entry) ∈ added) :
    after.look (root.under names) = .ok (some entry) :=
  look_under aside.growsWell aside.arrivesAgain (aside.stands_of_added member)
    (aside.unlinked _ member) (aside.short names entry member)

end Tree.GrowsAside

/-! ## What a scan meets -/

theorem filter_eraseDups {α : Type} [BEq α] [LawfulBEq α] (test : α → Bool) (items : List α) :
    items.eraseDups.filter test = (items.filter test).eraseDups := by
  cases items with
  | nil => rfl
  | cons first others =>
      have shorter := List.length_filter_le (fun other => !other == first) others
      rw [List.eraseDups_cons, List.filter_cons, List.filter_cons,
        filter_eraseDups test (others.filter fun other => !other == first)]
      by_cases kept : test first = true
      · rw [if_pos kept, if_pos kept, List.eraseDups_cons, List.filter_filter, List.filter_filter]
        simp only [Bool.and_comm]
      · rw [if_neg kept, if_neg kept, List.filter_filter]
        congr 1
        refine List.filter_congr fun other _ => ?_
        by_cases same : other = first
        · simp [same, kept]
        · simp [same]
termination_by items.length
decreasing_by simp; omega

theorem Path.name_under (root : Path) (front : List String) (last : String) :
    (root.under (front ++ [last])).name = last := by
  rw [Path.name, Path.under, ← List.append_assoc, List.getLast?_concat, Option.getD_some]

namespace PathPattern

open Work

/-- The paths in a directory whose names a shell pattern fits. -/
def children (tree : Tree) (pattern : String) (directory : Path) : List Path :=
  ((tree.namesIn directory).map directory.child).filter fun path =>
    Glob.matchesText pattern path.name

/-- The paths below a root whose names a shell pattern fits. -/
def candidates (tree : Tree) (pattern : String) (root : Path) : List Path :=
  ((root :: ((tree.below root).filter fun other => other.2 = .directory).map Prod.fst).flatMap
    (children tree pattern)).eraseDups

theorem outcome_select_fitting (pattern : String) (directory : Path) (tree : Tree) :
    (select [.fitting pattern] directory).outcome tree = .ok (children tree pattern directory) := by
  have one (next : Path) : (do
      if ← canLeadOn [] next then
        if Glob.matchesText pattern next.name then return ← select [] next
      return [] : Work (List Path)) =
      pure (if Glob.matchesText pattern next.name then [next] else []) := by
    by_cases fits : Glob.matchesText pattern next.name = true
    · simp [canLeadOn, select, fits]
    · simp [canLeadOn, fits]
  rw [select]
  simp only [one, List.mapM_pure, pure_bind]
  change Except.ok _ = _
  congr 1
  rw [children]
  induction (tree.namesIn directory).map directory.child with
  | nil => rfl
  | cons next others induction =>
      rw [List.map_cons, List.flatten_cons, List.filter_cons, induction]
      split <;> rfl

theorem outcome_select_anyDepth (pattern : String) (root : Path) (tree : Tree) :
    (select [.anyDepth, .fitting pattern] root).outcome tree =
      .ok (candidates tree pattern root) := by
  have looks (directories : List Path) : (do
      let found ← directories.mapM fun next => select [.fitting pattern] next
      return found.flatten.eraseDups : Work (List Path)).Looks :=
    (looks_mapM (looks_select _) _).bind fun _ => looks_pure _
  rw [select, outcome_bind gives_tree.looks fun tree => looks _, gives_tree.outcome_eq]
  change (List.mapM _ _ >>= _ : Work _).outcome tree = _
  rw [outcome_bind (looks_mapM (looks_select _) _) fun _ => looks_pure _,
    outcome_mapM (looks_select _) fun next _ => outcome_select_fitting pattern next tree]
  rfl

/-- Whether something stood under the names that lead from a root to a path. -/
def stood (tree : Tree) (root : Path) (place : Place) (path : Path) : Bool :=
  (tree.get? (place ++ path.names.drop root.names.length)).isSome

theorem stood_under (tree : Tree) (root : Path) (place : Place) (names : List String) :
    stood tree root place (root.under names) = (tree.get? (place ++ names)).isSome := by
  rw [stood, Path.under, List.drop_left]

section Candidates

variable {tree : Tree} {root path : Path} {place : Place} {pattern : String} {front : List String}
  (wellFormed : tree.WellFormed) (arrives : tree.walk .strict root = .ok place)
include wellFormed arrives

/-- The root and the paths of the directories below it. -/
theorem mem_directories_iff (directory : tree.get? place = some .directory) :
    path ∈ root :: ((tree.below root).filter fun other => other.2 = .directory).map Prod.fst ↔
      ∃ front, path = root.under front ∧ tree.get? (place ++ front) = some .directory := by
  rw [List.mem_cons, List.mem_map, Tree.below_eq_listingAt arrives]
  constructor
  · rintro (rfl | ⟨⟨path, entry⟩, kept, rfl⟩)
    · exact ⟨[], by simp [Path.under], by rw [List.append_nil, directory]⟩
    · obtain ⟨shown, isDirectory⟩ := List.mem_filter.mp kept
      cases of_decide_eq_true isDirectory
      obtain ⟨front, -, rfl, stands⟩ := Tree.mem_listingAt_iff.mp shown
      exact ⟨front, rfl, (wellFormed.mem_entries_iff.mp stands).2⟩
  · rintro ⟨front, rfl, stands⟩
    by_cases atTop : front = []
    · exact .inl (by rw [atTop, Path.under, List.append_nil])
    · refine .inr ⟨(root.under front, .directory),
        List.mem_filter.mpr ⟨?_, decide_eq_true rfl⟩, rfl⟩
      exact Tree.mem_listingAt_iff.mpr
        ⟨front, atTop, rfl, wellFormed.mem_entries_iff.mpr ⟨by simp [atTop], stands⟩⟩

/-- The paths in a directory that a pattern fits, as far as its own path is not too long. -/
theorem mem_children_iff (above : tree.get? (place ++ front) = some .directory) :
    path ∈ children tree pattern (root.under front) ↔ Tree.flaw? (root.under front) = none ∧
      ∃ last entry, path = root.under (front ++ [last]) ∧
        (place ++ (front ++ [last]), entry) ∈ tree.entries ∧
        Glob.matchesText pattern last = true := by
  rw [children, List.mem_filter, List.mem_map]
  cases flawed : Tree.flaw? (root.under front) with
  | some error => simp [Tree.namesIn, Tree.walk, flawed]
  | none =>
      rw [Tree.namesIn_eq_namesAt (wellFormed.walk_append arrives above (by simp) flawed)]
      constructor
      · rintro ⟨⟨last, inDirectory, rfl⟩, fits⟩
        obtain ⟨entry, stands⟩ := Tree.mem_namesAt_iff.mp inDirectory
        rw [Path.child_under, Path.name_under] at fits
        exact ⟨rfl, last, entry, Path.child_under _ _ _, List.append_assoc _ _ _ ▸ stands, fits⟩
      · rintro ⟨-, last, entry, rfl, stands, fits⟩
        rw [← List.append_assoc] at stands
        exact ⟨⟨last, Tree.mem_namesAt_iff.mpr ⟨entry, stands⟩, Path.child_under _ _ _⟩,
          by rwa [Path.name_under]⟩

/-- The paths that a pattern fits are those of the entries below the root with a last name that it
fits, as far as the paths of their directories are not too long. -/
theorem mem_candidates_iff (directory : tree.get? place = some .directory) :
    path ∈ candidates tree pattern root ↔ ∃ front last entry, path = root.under (front ++ [last]) ∧
      Tree.flaw? (root.under front) = none ∧ (place ++ (front ++ [last]), entry) ∈ tree.entries ∧
      Glob.matchesText pattern last = true := by
  rw [candidates, List.mem_eraseDups, List.mem_flatMap]
  constructor
  · rintro ⟨_, listed, member⟩
    obtain ⟨front, rfl, above⟩ := (mem_directories_iff wellFormed arrives directory).mp listed
    obtain ⟨fine, last, entry, same, stands, fits⟩ :=
      (mem_children_iff wellFormed arrives above).mp member
    exact ⟨front, last, entry, same, fine, stands, fits⟩
  · rintro ⟨front, last, entry, same, fine, stands, fits⟩
    have placed := (wellFormed.mem_entries_iff.mp stands).2
    rw [← List.append_assoc] at placed
    have above := (wellFormed.placed_of_stands placed).2
    exact ⟨root.under front,
      (mem_directories_iff wellFormed arrives directory).mpr ⟨front, rfl, above⟩,
      (mem_children_iff wellFormed arrives above).mpr ⟨fine, last, entry, same, stands, fits⟩⟩

/-- A path that a pattern fits leads along names to an entry. -/
theorem exists_of_mem_candidates (directory : tree.get? place = some .directory)
    (member : path ∈ candidates tree pattern root) :
    ∃ names entry, names ≠ [] ∧ path = root.under names ∧
      (place ++ names, entry) ∈ tree.entries := by
  obtain ⟨front, last, entry, rfl, -, stands, -⟩ :=
    (mem_candidates_iff wellFormed arrives directory).mp member
  exact ⟨front ++ [last], entry, by simp, rfl, stands⟩

end Candidates

section Aside

variable {tree after : Tree} {root path : Path} {place : Place} {name : String}
  {added : List (Place × Entry)} {names : List String} {pattern : String}
  (aside : tree.GrowsAside after root place name added)
include aside

/-- In an old directory the names that stood there are as they were. -/
theorem children_of_stood (directory : tree.get? (place ++ names) = some .directory) :
    (children after pattern (root.under names)).filter (stood tree root place) =
      children tree pattern (root.under names) := by
  cases flawed : Tree.flaw? (root.under names) with
  | some error => simp [children, Tree.namesIn, Tree.walk, flawed]
  | none =>
      have arrives := aside.wellFormed.walk_append aside.arrives directory (by simp) flawed
      have again := Tree.walk_of_grows_ok aside.grows arrives
      rw [children, children, Tree.namesIn_eq_namesAt arrives, Tree.namesIn_eq_namesAt again,
        Tree.namesAt_of_grows aside.grows, List.map_append, List.filter_append, List.filter_append]
      have old (next : Path) (member : next ∈ (tree.namesAt (place ++ names)).map
          (root.under names).child) : stood tree root place next = true := by
        obtain ⟨last, listed, rfl⟩ := List.mem_map.mp member
        obtain ⟨entry, stands⟩ := Tree.mem_namesAt_iff.mp listed
        rw [Path.child_under, stood_under, ← List.append_assoc,
          (aside.wellFormed.mem_entries_iff.mp stands).2]
        rfl
      have new (next : Path) (member : next ∈ (Tree.namesAt ⟨added⟩ (place ++ names)).map
          (root.under names).child) : stood tree root place next = false := by
        obtain ⟨last, listed, rfl⟩ := List.mem_map.mp member
        obtain ⟨entry, stands⟩ := Tree.mem_namesAt_iff.mp listed
        rw [Path.child_under, stood_under, ← List.append_assoc, aside.grows.absent _ stands]
        rfl
      refine (congrArg₂ _ (List.filter_eq_self.mpr fun next member => ?_)
        (List.filter_eq_nil_iff.mpr fun next member => ?_)).trans (List.append_nil _)
      · exact old next (List.mem_filter.mp member).1
      · simp [new next (List.mem_filter.mp member).1]

/-- In a new directory nothing stood. -/
theorem children_of_absent (absent : tree.get? (place ++ names) = none) :
    (children after pattern (root.under names)).filter (stood tree root place) = [] := by
  refine List.filter_eq_nil_iff.mpr fun next member => ?_
  obtain ⟨last, -, rfl⟩ := List.mem_map.mp (List.mem_filter.mp member).1
  rw [Path.child_under, stood_under, ← List.append_assoc,
    aside.wellFormed.absent_below absent (List.prefix_append _ _)]
  nofun

/-- Among the paths that a pattern fits, those that stood are as they were. -/
theorem candidates_of_aside :
    (candidates after pattern root).filter (stood tree root place) =
      candidates tree pattern root := by
  have rootUnder : root = root.under [] := by simp [Path.under]
  rw [candidates, candidates, filter_eraseDups, List.filter_flatMap,
    Tree.below_eq_listingAt aside.arrives, Tree.below_eq_listingAt aside.arrivesAgain,
    Tree.listingAt_of_grows aside.grows, List.filter_append, List.map_append, ← List.cons_append,
    List.flatMap_append]
  have old (directory : Path) (member : directory ∈ root ::
      ((tree.listingAt root place).filter fun other => other.2 = .directory).map Prod.fst) :
      (children after pattern directory).filter (stood tree root place) =
        children tree pattern directory := by
    rcases List.mem_cons.mp member with same | below
    · have top := @children_of_stood tree after root place name added [] pattern aside
        (by rw [List.append_nil, aside.directory])
      rw [← rootUnder] at top
      rw [same, top]
    · obtain ⟨⟨path, entry⟩, listed, rfl⟩ := List.mem_map.mp below
      obtain ⟨listed, isDirectory⟩ := List.mem_filter.mp listed
      cases of_decide_eq_true isDirectory
      obtain ⟨names, -, rfl, stands⟩ := Tree.mem_listingAt_iff.mp listed
      exact children_of_stood aside (aside.wellFormed.mem_entries_iff.mp stands).2
  have new (directory : Path) (member : directory ∈
      ((Tree.listingAt ⟨added⟩ root place).filter fun other => other.2 = .directory).map Prod.fst) :
      (children after pattern directory).filter (stood tree root place) = [] := by
    obtain ⟨⟨path, entry⟩, listed, rfl⟩ := List.mem_map.mp member
    obtain ⟨names, -, rfl, stands⟩ := Tree.mem_listingAt_iff.mp (List.mem_filter.mp listed).1
    exact children_of_absent aside (aside.grows.absent _ stands)
  rw [List.flatMap_congr old, List.flatMap_eq_nil_iff.mpr new, List.append_nil]

end Aside

end PathPattern

/-! ## What a scan keeps -/

namespace Work

variable {α : Type} {test : α → Work Bool} {tree after : Tree} {items : List α}

theorem outcome_keep_cons (looks : ∀ item, (test item).Looks) (first : α) (others : List α)
    (tree : Tree) :
    (keep test (first :: others)).outcome tree =
      (test first).outcome tree >>= fun kept =>
        if kept then (keep test others).outcome tree >>= fun others => .ok (first :: others)
        else (keep test others).outcome tree := by
  rw [keep, outcome_bind (looks first) fun kept => looks_ite
    ((looks_keep looks others).bind fun _ => looks_pure _) (looks_keep looks others)]
  refine congrArg _ (funext fun kept => ?_)
  split
  · rw [outcome_bind (looks_keep looks others) fun _ => looks_pure _]
    rfl
  · rfl

/-- A test that rejects what is new, and judges what is old as another one did, keeps what the
other one kept. -/
theorem outcome_keep_of_filter {other : α → Work Bool} (looks : ∀ item, (test item).Looks)
    (otherLooks : ∀ item, (other item).Looks) (old : α → Bool)
    (same : ∀ item ∈ items, old item = true →
      (test item).outcome after = (other item).outcome tree)
    (rejected : ∀ item ∈ items, old item = false → (test item).outcome after = .ok false) :
    (keep test items).outcome after = (keep other (items.filter old)).outcome tree := by
  induction items with
  | nil => rfl
  | cons first others induction =>
      rw [List.forall_mem_cons] at same rejected
      have rest := induction same.2 rejected.2
      rw [outcome_keep_cons looks, List.filter_cons, rest]
      by_cases isOld : old first = true
      · rw [if_pos isOld, outcome_keep_cons otherLooks, same.1 isOld]
      · rw [if_neg isOld, rejected.1 (Bool.not_eq_true _ ▸ isOld)]
        rfl

/-- Tests that judge alike keep the same. -/
theorem outcome_keep_congr {other : α → Work Bool} (looks : ∀ item, (test item).Looks)
    (otherLooks : ∀ item, (other item).Looks)
    (same : ∀ item ∈ items, (test item).outcome after = (other item).outcome tree) :
    (keep test items).outcome after = (keep other items).outcome tree := by
  rw [outcome_keep_of_filter looks otherLooks (fun _ => true)
    (fun item member _ => same item member) (fun _ _ => nofun), List.filter_true]

/-- Nothing more is kept if all that is more is rejected. -/
theorem outcome_keep_append (looks : ∀ item, (test item).Looks) {more : List α}
    (same : ∀ item ∈ items, (test item).outcome after = (test item).outcome tree)
    (rejected : ∀ item ∈ more, (test item).outcome after = .ok false) :
    (keep test (items ++ more)).outcome after = (keep test items).outcome tree := by
  induction items with
  | nil =>
      induction more with
      | nil => rfl
      | cons first others induction =>
          rw [List.forall_mem_cons] at rejected
          rw [List.nil_append, outcome_keep_cons looks, rejected.1]
          exact induction rejected.2
  | cons first others induction =>
      rw [List.forall_mem_cons] at same
      rw [List.cons_append, outcome_keep_cons looks, outcome_keep_cons looks, same.1,
        induction same.2]

/-- Whether a test passes a value. -/
def passes (test : α → Work Bool) (tree : Tree) (item : α) : Bool :=
  match (test item).outcome tree with
  | .ok verdict => verdict
  | .error _ => false

theorem passes_eq_true_iff {item : α} :
    passes test tree item = true ↔ (test item).outcome tree = .ok true := by
  rw [passes]
  split <;> simp [*]

/-- If everything is judged, what passes is kept. -/
theorem outcome_keep_of_judged (looks : ∀ item, (test item).Looks)
    (judged : ∀ item ∈ items, ∃ verdict, (test item).outcome tree = .ok verdict) :
    (keep test items).outcome tree = .ok (items.filter (passes test tree)) := by
  induction items with
  | nil => rfl
  | cons first others induction =>
      rw [List.forall_mem_cons] at judged
      obtain ⟨⟨verdict, passed⟩, judged⟩ := judged
      rw [outcome_keep_cons looks, induction judged, List.filter_cons, passed,
        show passes test tree first = verdict by rw [passes, passed]]
      cases verdict <;> rfl

/-- Nothing is kept unless everything is judged. -/
theorem judged_of_keep (looks : ∀ item, (test item).Looks) {kept : List α}
    (ended : (keep test items).outcome tree = .ok kept) :
    ∀ item ∈ items, ∃ verdict, (test item).outcome tree = .ok verdict := by
  induction items generalizing kept with
  | nil => exact nofun
  | cons first others induction =>
      rw [outcome_keep_cons looks] at ended
      cases judged : (test first).outcome tree with
      | error failure =>
          rw [judged] at ended
          cases ended
      | ok verdict =>
          rw [judged] at ended
          cases rest : (keep test others).outcome tree with
          | error failure =>
              rw [rest] at ended
              cases verdict <;> cases ended
          | ok more => exact List.forall_mem_cons.mpr ⟨⟨verdict, judged⟩, induction rest⟩

/-- Something is kept exactly if everything is judged, and then it is what passes. -/
theorem outcome_keep_eq_ok_iff (looks : ∀ item, (test item).Looks) {kept : List α} :
    (keep test items).outcome tree = .ok kept ↔
      (∀ item ∈ items, ∃ verdict, (test item).outcome tree = .ok verdict) ∧
        kept = items.filter (passes test tree) := by
  constructor
  · intro ended
    have judged := judged_of_keep looks ended
    exact ⟨judged, Except.ok.inj (ended.symm.trans (outcome_keep_of_judged looks judged))⟩
  · rintro ⟨judged, rfl⟩
    exact outcome_keep_of_judged looks judged

/-- What is kept has passed the test. -/
theorem passed_of_mem_keep (looks : ∀ item, (test item).Looks) {kept : List α}
    (ended : (keep test items).outcome tree = .ok kept) :
    ∀ item ∈ kept, item ∈ items ∧ (test item).outcome tree = .ok true := by
  obtain ⟨-, rfl⟩ := (outcome_keep_eq_ok_iff looks).mp ended
  intro item member
  exact (List.mem_filter.mp member).imp_right passes_eq_true_iff.mp

end Work

/-! ## What a scan accepts -/

namespace Selection

open Work

variable {tree after : Tree} {path root : Path} {bytes : ByteArray} {selection : Selection}

theorem outcome_isFile (path : Path) (tree : Tree) :
    (isFile path).outcome tree = ((tree.look path).mapError Failure.tree).map fun found =>
      match found with
      | some (.file _) => true
      | _ => false := by
  rw [isFile, outcome_bind (looks_look path) fun found => ?_, (gives_look path).outcome_eq]
  · cases (tree.look path).mapError Failure.tree with
    | error failure => rfl
    | ok found => rcases found with _ | ⟨_ | _ | _⟩ <;> rfl
  · split
    · exact looks_pure true
    · exact looks_pure false

theorem outcome_isOwnFile (path : Path) (tree : Tree) :
    (isOwnFile path).outcome tree = (isFile path).outcome tree >>= fun isFile =>
      if isFile then ((tree.isLink path).mapError Failure.tree).map fun isLink => !isLink
      else .ok false := by
  rw [isOwnFile, outcome_bind (looks_isFile path) fun isFile => looks_ite
    ((looks_isLink path).bind fun _ => looks_pure _) (looks_pure _)]
  refine congrArg _ (funext fun isFile => ?_)
  split
  · rw [outcome_bind (looks_isLink path) fun _ => looks_pure _, (gives_isLink path).outcome_eq]
    cases (tree.isLink path).mapError Failure.tree <;> rfl
  · rfl

/-- What is a file is found as one. -/
theorem exists_look_of_isFile (isFile : (isFile path).outcome tree = .ok true) :
    ∃ bytes, tree.look path = .ok (some (.file bytes)) := by
  rw [outcome_isFile] at isFile
  cases found : tree.look path with
  | error failure =>
      rw [found] at isFile
      cases isFile
  | ok entry =>
      rw [found] at isFile
      rcases entry with _ | ⟨bytes | _ | _⟩
      · cases isFile
      · exact ⟨bytes, rfl⟩
      · cases isFile
      · cases isFile

theorem exists_look_of_isOwnFile (isOwn : (isOwnFile path).outcome tree = .ok true) :
    ∃ bytes, tree.look path = .ok (some (.file bytes)) := by
  rw [outcome_isOwnFile] at isOwn
  cases isFile : (isFile path).outcome tree with
  | error failure =>
      rw [isFile] at isOwn
      cases isOwn
  | ok answer =>
      rw [isFile] at isOwn
      cases answer with
      | false => cases isOwn
      | true => exact exists_look_of_isFile isFile

/-- A link is no file of its own, unless it cannot be looked at. -/
theorem outcome_isOwnFile_link {place : Place} {names : List String} {target : Path}
    (wellFormed : tree.WellFormed) (arrives : tree.walk .strict root = .ok place)
    (nonempty : names ≠ []) (stands : tree.get? (place ++ names) = some (.link target))
    (fine : Tree.flaw? (root.under names) = none) :
    (isOwnFile (root.under names)).outcome tree =
      ((tree.look (root.under names)).mapError Failure.tree).map fun _ => false := by
  rw [outcome_isOwnFile, outcome_isFile,
    Tree.isLink_under wellFormed arrives nonempty stands fine]
  cases tree.look (root.under names) with
  | error error => rfl
  | ok found => rcases found with _ | ⟨_ | _ | _⟩ <;> rfl

/-- What the settings and the ignore files say of a path. -/
def verdict (selection : Selection) (path : Path) : Except Failure Bool :=
  match path.relativeTo? selection.root with
  | none => .error .outsideRoot
  | some below =>
      if !selection.outputDir.isEmpty && below.names.head? == some selection.outputDir then
        .ok false
      else
        ((isIgnored selection.ignoreFiles.1 path selection.ignoreFiles.2).mapError .ignore).map
          fun ignored => !ignored && selection.takes below.render

theorem outcome_accepts (selection : Selection) (path : Path) (tree : Tree) :
    (selection.accepts path).outcome tree = (isOwnFile path).outcome tree >>= fun own =>
      if own then (leadsInside selection.root path).outcome tree >>= fun inside =>
        if inside then selection.verdict path else .ok false
      else .ok false := by
  have judges : (do
      match path.relativeTo? selection.root with
      | none => throw Failure.outsideRoot
      | some below =>
          if !selection.outputDir.isEmpty && below.names.head? == some selection.outputDir then
            return false
          if ← Work.demand .ignore
              (isIgnored selection.ignoreFiles.1 path selection.ignoreFiles.2) then
            return false
          return selection.takes below.render : Work Bool).Gives
        fun _ => selection.verdict path := by
    intro tree journal
    refine ⟨journal, ?_⟩
    unfold verdict
    cases path.relativeTo? selection.root with
    | none => rfl
    | some below =>
        dsimp only
        split
        · rfl
        · cases isIgnored selection.ignoreFiles.1 path selection.ignoreFiles.2 with
          | error error => rfl
          | ok ignored => cases ignored <;> rfl
  rw [accepts, outcome_bind (looks_isOwnFile path) fun own => ?_]
  · refine congrArg _ (funext fun own => ?_)
    cases own with
    | false => rfl
    | true =>
        change (leadsInside selection.root path >>= _ : Work Bool).outcome tree = _
        rw [outcome_bind (looks_leadsInside _ path) fun inside => ?_]
        · refine congrArg _ (funext fun inside => ?_)
          cases inside with
          | false => rfl
          | true => exact judges.outcome_eq tree
        · exact looks_ite (looks_pure _) judges.looks
  · exact looks_ite (looks_pure _)
      ((looks_leadsInside _ path).bind fun _ => looks_ite (looks_pure _) judges.looks)

/-- What is accepted is found as a file. -/
theorem exists_look_of_accepts (accepted : (selection.accepts path).outcome tree = .ok true) :
    ∃ bytes, tree.look path = .ok (some (.file bytes)) := by
  rw [outcome_accepts] at accepted
  cases own : (isOwnFile path).outcome tree with
  | error failure =>
      rw [own] at accepted
      cases accepted
  | ok isOwn =>
      rw [own] at accepted
      cases isOwn with
      | false => cases accepted
      | true => exact exists_look_of_isOwnFile own

theorem outcome_leadsInside (root path : Path) (tree : Tree) :
    (leadsInside root path).outcome tree =
      (tree.resolve path).mapError resolveFailure >>= fun real =>
        ((tree.resolve root).mapError resolveFailure).map fun realRoot =>
          (real.relativeTo? realRoot).isSome := by
  rw [leadsInside, outcome_bind (looks_resolve path) fun _ => (looks_resolve root).bind fun _ =>
    looks_pure _, (gives_resolve path).outcome_eq]
  refine congrArg _ (funext fun real => ?_)
  rw [outcome_bind (looks_resolve root) fun _ => looks_pure _, (gives_resolve root).outcome_eq]
  cases (tree.resolve root).mapError resolveFailure <;> rfl

/-! ### After a tree has grown -/

section Aside

variable {place : Place} {name : String} {added : List (Place × Entry)} {names : List String}
  {entry : Entry} (aside : tree.GrowsAside after root place name added)
include aside

theorem isOwnFile_of_stood (nonempty : names ≠ [])
    (stood : tree.get? (place ++ names) = some entry) :
    (isOwnFile (root.under names)).outcome after = (isOwnFile (root.under names)).outcome tree := by
  by_cases isLink : ∃ target, entry = .link target
  · obtain ⟨target, rfl⟩ := isLink
    cases flawed : Tree.flaw? (root.under names) with
    | some error =>
        rw [outcome_isOwnFile, outcome_isOwnFile, outcome_isFile, outcome_isFile,
          aside.isLink_eq nonempty stood, Tree.look_of_flaw after flawed,
          Tree.look_of_flaw tree flawed]
    | none =>
        rw [outcome_isOwnFile_link aside.wellFormed aside.arrives nonempty stood flawed,
          outcome_isOwnFile_link aside.growsWell aside.arrivesAgain nonempty
            (aside.grows.stays stood) flawed]
        cases looked : after.look (root.under names) with
        | error error =>
            rw [aside.links.short _ target error (aside.link_mem_below nonempty stood) looked]
        | ok found =>
            cases before : tree.look (root.under names) with
            | error error =>
                rw [Tree.look_error_of_grows aside.grows before] at looked
                cases looked
            | ok found => rfl
  · rw [outcome_isOwnFile, outcome_isOwnFile, outcome_isFile, outcome_isFile,
      aside.isLink_eq nonempty stood,
      aside.look_eq stood fun target same => isLink ⟨target, same⟩]

theorem leadsInside_of_walk {spot : Place} (arrives : tree.walk .strict path = .ok spot)
    (stands : tree.get? spot = some entry) :
    (leadsInside root path).outcome after = (leadsInside root path).outcome tree := by
  have again := Tree.walk_of_grows_ok aside.grows arrives
  have directory := aside.grows.stays aside.directory
  rw [outcome_leadsInside, outcome_leadsInside,
    Tree.resolve_of_walk aside.wellFormed arrives stands,
    Tree.resolve_of_walk aside.wellFormed aside.arrives aside.directory,
    Tree.resolve_of_walk aside.growsWell again (aside.grows.stays stands),
    Tree.resolve_of_walk aside.growsWell aside.arrivesAgain directory]

/-- A path that stood is accepted as it was. -/
theorem accepts_of_stood (sameRoot : selection.root = root) (nonempty : names ≠ [])
    (stood : tree.get? (place ++ names) = some entry) :
    (selection.accepts (root.under names)).outcome after =
      (selection.accepts (root.under names)).outcome tree := by
  rw [outcome_accepts, outcome_accepts, isOwnFile_of_stood aside nonempty stood, sameRoot]
  cases own : (isOwnFile (root.under names)).outcome tree with
  | error failure => rfl
  | ok isOwn =>
      cases isOwn with
      | false => rfl
      | true =>
          obtain ⟨bytes, found⟩ := exists_look_of_isOwnFile own
          obtain ⟨spot, arrives, stands⟩ := Tree.look_eq_some_iff.mp found
          rw [leadsInside_of_walk aside arrives stands]

/-- What was added is a file of its own, or a directory. -/
theorem isOwnFile_of_added (member : (place ++ names, entry) ∈ added) :
    (isOwnFile (root.under names)).outcome after = .ok (entry ≠ .directory) := by
  rw [outcome_isOwnFile, outcome_isFile, aside.look_added member]
  cases entry with
  | directory => rfl
  | link target => exact absurd rfl (aside.unlinked _ member target)
  | file bytes =>
      have nonempty : names ≠ [] := by
        rintro rfl
        cases aside.inside _ _ member
      change ((after.isLink _).mapError Failure.tree).map _ = _
      rw [Tree.isLink_under aside.growsWell aside.arrivesAgain nonempty
        (aside.stands_of_added member) (aside.short _ _ member)]
      rfl

/-- A path that is new is not accepted if its directory is left out. -/
theorem accepts_of_added (sameRoot : selection.root = root) (leftOut : selection.outputDir = name)
    (named : name ≠ "") (member : (place ++ names, entry) ∈ added) :
    (selection.accepts (root.under names)).outcome after = .ok false := by
  have stands := aside.stands_of_added member
  have arrives := aside.growsWell.walk_append aside.arrivesAgain stands (aside.unlinked _ member)
    (aside.short names entry member)
  have directory := aside.grows.stays aside.directory
  have inside : (leadsInside root (root.under names)).outcome after = .ok true := by
    rw [outcome_leadsInside, Tree.resolve_of_walk aside.growsWell arrives stands,
      Tree.resolve_of_walk aside.growsWell aside.arrivesAgain directory]
    change Except.ok ((Path.under ⟨"/", place⟩ names).relativeTo? ⟨"/", place⟩).isSome = _
    rw [Path.relativeTo?_under]
    rfl
  have rejected : selection.verdict (root.under names) = .ok false := by
    rw [verdict, sameRoot, Path.relativeTo?_under]
    simp [leftOut, named, aside.inside names entry member]
  rw [outcome_accepts, isOwnFile_of_added aside member, sameRoot, inside]
  cases decide (entry ≠ .directory) with
  | false => rfl
  | true => exact rejected

end Aside

end Selection

end CallGraph
