import CallGraph.Proofs.Trees.Growing

/-!
# What stands below a directory

The listing of a directory shows what stands below it.  When the tree grows, the listing goes on
with what was added there.
-/

namespace CallGraph

/-- Whether an entry is a link. -/
def Entry.isLink : Entry → Bool
  | .link _ => true
  | _ => false

namespace Tree

variable {tree after : Tree} {place spot : Place} {entry : Entry} {name : String}
  {names : List String} {root path : Path} {error : TreeError} {added : List (Place × Entry)}

/-! ## Listings -/

theorem mem_entriesBelow_iff :
    (spot, entry) ∈ tree.entriesBelow place ↔
      (spot, entry) ∈ tree.entries ∧ ∃ names, names ≠ [] ∧ spot = place ++ names := by
  rw [entriesBelow, List.mem_filter]
  refine and_congr_right fun _ => ?_
  simp only [Bool.and_eq_true, List.isPrefixOf_iff_prefix, bne_iff_ne]
  constructor
  · rintro ⟨⟨names, rfl⟩, different⟩
    exact ⟨names, by simpa using different, rfl⟩
  · rintro ⟨names, nonempty, rfl⟩
    exact ⟨List.prefix_append _ _, by simpa using nonempty⟩

/-- What stands below a place, as the listing of a directory that stands there shows it. -/
def listingAt (tree : Tree) (root : Path) (place : Place) : List (Path × Entry) :=
  (tree.entriesBelow place).map fun other => (root.under (other.1.drop place.length), other.2)

/-- The names in the directory at a place. -/
def namesAt (tree : Tree) (place : Place) : List String :=
  (tree.entriesBelow place).filterMap fun other =>
    match other.1.drop place.length with
    | [name] => some name
    | _ => none

theorem below_eq_listingAt (arrives : tree.walk .strict root = .ok place) :
    tree.below root = tree.listingAt root place := by
  rw [below, arrives]
  rfl

theorem namesIn_eq_namesAt (arrives : tree.walk .strict path = .ok place) :
    tree.namesIn path = tree.namesAt place := by
  rw [namesIn, arrives]
  rfl

theorem mem_listingAt_iff :
    (path, entry) ∈ tree.listingAt root place ↔
      ∃ names, names ≠ [] ∧ path = root.under names ∧ (place ++ names, entry) ∈ tree.entries := by
  simp only [listingAt, List.mem_map, Prod.mk.injEq, Prod.exists, mem_entriesBelow_iff]
  constructor
  · rintro ⟨_, _, ⟨member, names, nonempty, rfl⟩, rfl, rfl⟩
    rw [List.drop_left]
    exact ⟨names, nonempty, rfl, member⟩
  · rintro ⟨names, nonempty, rfl, member⟩
    exact ⟨_, _, ⟨member, names, nonempty, rfl⟩, by rw [List.drop_left], rfl⟩

theorem mem_namesAt_iff :
    name ∈ tree.namesAt place ↔ ∃ entry, (place ++ [name], entry) ∈ tree.entries := by
  simp only [namesAt, List.mem_filterMap, Prod.exists, mem_entriesBelow_iff]
  constructor
  · rintro ⟨_, entry, ⟨member, names, nonempty, rfl⟩, found⟩
    rw [List.drop_left] at found
    split at found
    · cases found
      exact ⟨entry, member⟩
    · cases found
  · rintro ⟨entry, member⟩
    exact ⟨_, entry, ⟨member, [name], by simp, rfl⟩, by rw [List.drop_left]⟩

/-- The listing of a directory goes on with what was added below it. -/
theorem listingAt_of_grows (grows : tree.GrowsTo after added) (root : Path) (place : Place) :
    after.listingAt root place = tree.listingAt root place ++ listingAt ⟨added⟩ root place := by
  rw [listingAt, entriesBelow, grows.entries, List.filter_append, List.map_append]
  rfl

/-- The names in a directory go on with those that were added there. -/
theorem namesAt_of_grows (grows : tree.GrowsTo after added) (place : Place) :
    after.namesAt place = tree.namesAt place ++ namesAt ⟨added⟩ place := by
  rw [namesAt, entriesBelow, grows.entries, List.filter_append, List.filterMap_append]
  rfl

/-! ## Looking at what is listed -/

theorem look_of_flaw (tree : Tree) (flawed : flaw? path = some error) :
    tree.look path = answer none (.error error) := by
  rw [look, walk, flawed]
  rfl

theorem isLink_of_flaw (tree : Tree) (flawed : flaw? path = some error) :
    tree.isLink path = answer false (.error error) := by
  rw [isLink, holder, flawed]
  rfl

variable (wellFormed : tree.WellFormed) (arrives : tree.walk .strict root = .ok place)
include wellFormed arrives

/-- What is listed is found under its path, if it is no link and the path is not too long. -/
theorem look_under (stands : tree.get? (place ++ names) = some entry)
    (unlinked : ∀ target, entry ≠ .link target) (fine : flaw? (root.under names) = none) :
    tree.look (root.under names) = .ok (some entry) :=
  look_eq_some_iff.mpr ⟨_, wellFormed.walk_append arrives stands unlinked fine, stands⟩

theorem isLink_under (nonempty : names ≠ []) (stands : tree.get? (place ++ names) = some entry)
    (fine : flaw? (root.under names) = none) :
    tree.isLink (root.under names) = .ok entry.isLink := by
  rcases List.eq_nil_or_concat names with none_ | ⟨front, last, shape⟩
  · exact absurd none_ nonempty
  rw [List.concat_eq_append] at shape
  subst shape
  rw [← List.append_assoc] at stands
  rw [isLink, wellFormed.holder_append arrives stands fine]
  simp only [Except.map, answer, stands]
  cases entry <;> rfl

omit wellFormed in
/-- What is not in a directory is not found there. -/
theorem look_under_absent (directory : tree.get? place = some .directory) (proper : IsProper name)
    (absent : tree.get? (place ++ [name]) = none) (fine : flaw? (root.under [name]) = none) :
    tree.look (root.under [name]) = .ok none := by
  obtain ⟨left, same⟩ := exists_walk_under arrives fine .strict
  rw [look, same, walkFrom, stride_absent directory proper.1 (by simp [proper.2.2]) absent]
  rfl

end Tree

end CallGraph
