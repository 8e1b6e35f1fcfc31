import CallGraph.Proofs.Trees.Writing
import Mathlib.Data.List.Induction
import Mathlib.Data.List.Nodup

/-!
# Trees that grow

What is made where nothing stood comes after all that was there, and hides nothing.  A walk that
does not end for want of something to go on with goes on as it did.

In a tree like those of a machine, whatever has an entry stands in a directory under a name of its
own.  A path that is not too long leads along the names of the directories to every entry below.
-/

namespace CallGraph

/-- The path that leads on along names. -/
def Path.under (path : Path) (names : List String) : Path :=
  { path with names := path.names ++ names }

theorem Path.child_eq_under (path : Path) (name : String) :
    path.child name = path.under [name] := rfl

theorem Path.child_under (path : Path) (names : List String) (name : String) :
    (path.under names).child name = path.under (names ++ [name]) := by
  rw [under, under, child, List.append_assoc]

theorem Path.relativeTo?_under (path : Path) (names : List String) :
    (path.under names).relativeTo? path = some { names } := by
  simp [relativeTo?, under]

namespace Tree

variable {tree middle after : Tree} {lenience : Lenience} {links : Nat} {place spot above : Place}
  {entry : Entry} {name : String} {names : List String} {path : Path} {error : TreeError}
  {added more : List (Place × Entry)}

/-! ## Trees that grow -/

theorem lookup_eq_none_iff {entries : List (Place × Entry)} :
    entries.lookup place = none ↔ ∀ other ∈ entries, other.1 ≠ place := by
  simp only [List.lookup_eq_none_iff, bne_iff_ne, ne_comm (a := place)]

theorem mem_of_lookup {α : Type} {items : List (Place × α)} {item : α}
    (found : items.lookup place = some item) : (place, item) ∈ items := by
  obtain ⟨front, back, rfl, -⟩ := List.lookup_eq_some_iff.mp found
  exact List.mem_append_right _ List.mem_cons_self

theorem get?_of_ne_nil (tree : Tree) (nonempty : place ≠ []) :
    tree.get? place = tree.entries.lookup place := by
  rw [get?, if_neg (by simpa using nonempty)]

theorem ne_nil_of_absent (absent : tree.get? place = none) : place ≠ [] := by
  rintro rfl
  cases absent

/-- What is put where nothing stands comes after all that is there. -/
theorem entries_put_of_absent (absent : tree.get? place = none) (entry : Entry) :
    (tree.put place entry).entries = tree.entries ++ [(place, entry)] := by
  have free := absent
  rw [get?_of_ne_nil tree (ne_nil_of_absent absent), lookup_eq_none_iff] at free
  rw [put, List.filter_eq_self.mpr fun other member => by simpa using free other member]

/-- A tree to which entries were added where nothing stood. -/
structure GrowsTo (tree after : Tree) (added : List (Place × Entry)) : Prop where
  /-- Nothing stood there. -/
  absent : ∀ other ∈ added, tree.get? other.1 = none
  /-- The new entries come after all that was there. -/
  entries : after.entries = tree.entries ++ added

namespace GrowsTo

theorem refl (tree : Tree) : tree.GrowsTo tree [] :=
  ⟨nofun, (List.append_nil _).symm⟩

theorem put (absent : tree.get? place = none) (entry : Entry) :
    tree.GrowsTo (tree.put place entry) [(place, entry)] where
  absent other member := by rwa [List.mem_singleton.mp member]
  entries := entries_put_of_absent absent entry

theorem get?_eq (grows : tree.GrowsTo after added) (place : Place) :
    after.get? place = (tree.get? place).or (added.lookup place) := by
  by_cases top : place = []
  · subst top
    rfl
  · rw [get?_of_ne_nil after top, get?_of_ne_nil tree top, grows.entries, List.lookup_append]

/-- What stands somewhere stays. -/
theorem stays (grows : tree.GrowsTo after added) (stands : tree.get? place = some entry) :
    after.get? place = some entry := by
  rw [grows.get?_eq, stands, Option.some_or]

/-- What was not there was added. -/
theorem mem_added (grows : tree.GrowsTo after added) (absent : tree.get? place = none)
    (stands : after.get? place = some entry) : (place, entry) ∈ added := by
  rw [grows.get?_eq, absent, Option.none_or] at stands
  exact mem_of_lookup stands

theorem trans (first : tree.GrowsTo middle added) (second : middle.GrowsTo after more) :
    tree.GrowsTo after (added ++ more) where
  absent other member := by
    rcases List.mem_append.mp member with early | late
    · exact first.absent other early
    · have free := second.absent other late
      rw [first.get?_eq, Option.or_eq_none_iff] at free
      exact free.1
  entries := by rw [second.entries, first.entries, List.append_assoc]

end GrowsTo

/-! ## Walks in a tree that grows -/

theorem stride_of_grows (grows : tree.GrowsTo after added) (place : Place) (names : List String) :
    tree.stride .strict place names = .stopped .absent ∨
      after.stride .strict place names = tree.stride .strict place names := by
  fun_induction stride tree .strict place names with
  | case1 place => exact .inr rfl
  | case2 place name names noDirectory =>
      cases stands : tree.get? place with
      | none => exact .inl rfl
      | some entry =>
          have stays := grows.stays stands
          rw [stands] at noDirectory
          rw [stride, stays, if_pos noDirectory]
          exact .inr rfl
  | case3 place names directory induction =>
      rw [stride_up (grows.stays (Decidable.not_not.mp directory))]
      exact induction
  | case4 place name names directory notUp long =>
      have stays := grows.stays (Decidable.not_not.mp directory)
      rw [stride, if_neg (fun other => other stays), if_neg notUp, if_pos long]
      exact .inr rfl
  | case5 place name names directory notUp short target isLink =>
      exact .inr (stride_link (grows.stays (Decidable.not_not.mp directory)) notUp short
        (grows.stays isLink))
  | case6 place name names directory notUp short entry notLink stands induction =>
      rw [stride_on (grows.stays (Decidable.not_not.mp directory)) notUp short (grows.stays stands)
        notLink]
      exact induction
  | case7 place name names directory notUp short absent last => cases last.1
  | case8 => exact .inl rfl

theorem walkFrom_of_grows (grows : tree.GrowsTo after added) (links : Nat) (place : Place)
    (names : List String) :
    tree.walkFrom .strict links place names = .error .absent ∨
      after.walkFrom .strict links place names = tree.walkFrom .strict links place names := by
  fun_induction walkFrom tree .strict links place names with
  | case1 links place names spot went =>
      rcases stride_of_grows grows place names with lost | same
      · rw [went] at lost
        cases lost
      · exact .inr (by rw [walkFrom, same, went])
  | case2 links place names error went =>
      rcases stride_of_grows grows place names with lost | same
      · rw [went] at lost
        cases lost
        exact .inl rfl
      · exact .inr (by rw [walkFrom, same, went])
  | case3 place names next more went =>
      rcases stride_of_grows grows place names with lost | same
      · rw [went] at lost
        cases lost
      · exact .inr (by rw [walkFrom, same, went])
  | case4 place names next more went links induction =>
      rcases stride_of_grows grows place names with lost | same
      · rw [went] at lost
        cases lost
      · rw [show after.walkFrom .strict (links + 1) place names =
            after.walkFrom .strict links next more by rw [walkFrom, same, went]]
        exact induction

/-- A walk goes as it did, unless something was missing. -/
theorem walk_of_grows (grows : tree.GrowsTo after added)
    (present : tree.walk .strict path ≠ .error .absent) :
    after.walk .strict path = tree.walk .strict path := by
  unfold walk at present ⊢
  split
  · rfl
  · next fine =>
      rw [fine] at present
      exact (walkFrom_of_grows grows linkLimit [] path.names).resolve_left present

theorem walk_of_grows_ok (grows : tree.GrowsTo after added)
    (arrives : tree.walk .strict path = .ok spot) : after.walk .strict path = .ok spot := by
  rw [walk_of_grows grows (by rw [arrives]; exact nofun), arrives]

/-- Only paths that can lead anywhere lead somewhere. -/
theorem fine_of_walk (arrives : tree.walk lenience path = .ok spot) : flaw? path = none :=
  (walk_eq_ok_iff.mp arrives).1

theorem look_eq_some_iff {entry : Entry} :
    tree.look path = .ok (some entry) ↔
      ∃ place, tree.walk .strict path = .ok place ∧ tree.get? place = some entry := by
  unfold look
  cases tree.walk .strict path with
  | error error => cases error <;> simp [answer, Except.map]
  | ok place => simp [answer, Except.map]

/-- What cannot be looked at, because a name is too long, still cannot. -/
theorem look_error_of_grows (grows : tree.GrowsTo after added)
    (failed : tree.look path = .error error) : after.look path = .error error := by
  unfold look at failed
  cases went : tree.walk .strict path with
  | ok place =>
      rw [went] at failed
      cases failed
  | error reason =>
      have present : tree.walk .strict path ≠ .error .absent := by
        intro lost
        rw [lost] at failed
        cases failed
      rw [went] at failed
      rw [look, walk_of_grows grows present, went]
      exact failed

/-! ## Walks in parts -/

/-- A walk along a path goes on from where the beginning of the path leads. -/
theorem exists_walkFrom_append (lenience : Lenience) (name : String) (more : List String)
    (arrives : tree.walkFrom .strict links place names = .ok spot) :
    ∃ left, tree.walkFrom lenience links place (names ++ name :: more) =
      tree.walkFrom lenience left spot (name :: more) := by
  fun_induction walkFrom tree .strict links place names with
  | case1 links place names goal went =>
      cases arrives
      refine ⟨links, ?_⟩
      rw [walkFrom, walkFrom, stride_append_cons, went]
  | case2 => cases arrives
  | case3 => cases arrives
  | case4 place names next others went links induction =>
      obtain ⟨left, same⟩ := induction arrives
      refine ⟨left, ?_⟩
      rw [walkFrom, stride_append_cons, went]
      exact same

/-- A path that can be looked up leads on from where its beginning leads. -/
theorem exists_walk_under (arrives : tree.walk .strict path = .ok place)
    (fine : flaw? (path.under (name :: names)) = none) (lenience : Lenience) :
    ∃ left, tree.walk lenience (path.under (name :: names)) =
      tree.walkFrom lenience left place (name :: names) := by
  obtain ⟨left, same⟩ :=
    exists_walkFrom_append lenience name names (walk_eq_ok_iff.mp arrives).2
  refine ⟨left, ?_⟩
  rw [walk, fine]
  exact same

/-! ## Well-formed trees -/

/-- A name that something in a directory can have. -/
def IsProper (name : String) : Prop := name ≠ ".." ∧ isName name = true ∧ isTooLong name = false

instance (name : String) : Decidable (IsProper name) :=
  inferInstanceAs (Decidable (_ ∧ _ ∧ _))

/-- A tree like those of a machine. -/
structure WellFormed (tree : Tree) : Prop where
  /-- No place has two entries. -/
  distinct : (tree.entries.map Prod.fst).Nodup
  /-- Every entry stands in a directory under a proper name. -/
  placed : ∀ other ∈ tree.entries, ∃ above name, other.1 = above ++ [name] ∧ IsProper name ∧
    tree.get? above = some .directory
  /-- Links lead along names. -/
  linked : ∀ place target, (place, Entry.link target) ∈ tree.entries →
    ∀ name ∈ target.names, isName name = true

namespace WellFormed

/-- The entries are what stands at places other than the top. -/
theorem mem_entries_iff (wellFormed : tree.WellFormed) :
    (place, entry) ∈ tree.entries ↔ place ≠ [] ∧ tree.get? place = some entry := by
  constructor
  · intro member
    obtain ⟨above, name, shape, -, -⟩ := wellFormed.placed _ member
    have nonempty : place ≠ [] := by rw [show place = above ++ [name] from shape]; simp
    refine ⟨nonempty, ?_⟩
    rw [get?_of_ne_nil tree nonempty]
    obtain ⟨front, back, split⟩ := List.append_of_mem member
    have distinct := wellFormed.distinct
    rw [split, List.map_append, List.map_cons, List.nodup_middle, List.nodup_cons] at distinct
    refine List.lookup_eq_some_iff.mpr ⟨front, back, split, fun other early => ?_⟩
    rw [bne_iff_ne]
    intro same
    exact distinct.1 (List.mem_append_left _ (List.mem_map.mpr ⟨other, early, same.symm⟩))
  · rintro ⟨nonempty, stands⟩
    rw [get?_of_ne_nil tree nonempty] at stands
    exact mem_of_lookup stands

theorem placed_of_stands (wellFormed : tree.WellFormed)
    (stands : tree.get? (above ++ [name]) = some entry) :
    IsProper name ∧ tree.get? above = some .directory := by
  obtain ⟨front, last, shape, proper, directory⟩ := wellFormed.placed (above ++ [name], entry)
    (wellFormed.mem_entries_iff.mpr ⟨by simp, stands⟩)
  obtain ⟨rfl, same⟩ := List.append_inj' shape rfl
  cases same
  exact ⟨proper, directory⟩

/-- Whatever stands somewhere has only directories above it. -/
theorem directory_of_prefix (wellFormed : tree.WellFormed) (stands : tree.get? place = some entry)
    (isPrefix : above <+: place) (different : above ≠ place) :
    tree.get? above = some .directory := by
  induction place using List.reverseRecOn generalizing entry with
  | nil => exact absurd (List.prefix_nil.mp isPrefix) different
  | append_singleton front name induction =>
      have directory := (wellFormed.placed_of_stands stands).2
      have isPrefix := (List.prefix_concat_iff.mp isPrefix).resolve_left different
      by_cases same : above = front
      · rw [same, directory]
      · exact induction directory isPrefix same

/-- Nothing stands below a place where nothing stands. -/
theorem absent_below (wellFormed : tree.WellFormed) (absent : tree.get? above = none)
    (isPrefix : above <+: place) : tree.get? place = none := by
  cases stands : tree.get? place with
  | none => rfl
  | some entry =>
      by_cases same : above = place
      · rw [← same, absent] at stands
        cases stands
      · rw [wellFormed.directory_of_prefix stands isPrefix same] at absent
        cases absent

/-- The names on the way to whatever stands somewhere are proper. -/
theorem proper (wellFormed : tree.WellFormed) (stands : tree.get? place = some entry) :
    ∀ name ∈ place, IsProper name := by
  induction place using List.reverseRecOn generalizing entry with
  | nil => exact nofun
  | append_singleton front last induction =>
      obtain ⟨proper, directory⟩ := wellFormed.placed_of_stands stands
      intro name member
      rcases List.mem_append.mp member with early | isLast
      · exact induction directory name early
      · rwa [List.mem_singleton.mp isLast]

theorem empty : WellFormed {} := ⟨List.nodup_nil, nofun, nofun⟩

/-- An entry may be put under a proper name where no directory stands. -/
theorem replace (wellFormed : tree.WellFormed) (directory : tree.get? above = some .directory)
    (proper : IsProper name) (free : tree.get? (above ++ [name]) ≠ some .directory)
    (linked : ∀ target, entry = .link target → ∀ name ∈ target.names, isName name = true) :
    (tree.put (above ++ [name]) entry).WellFormed := by
  have stays {place : Place} (stands : tree.get? place = some .directory) :
      (tree.put (above ++ [name]) entry).get? place = some .directory := by
    rw [get?_put tree entry (by simp), if_neg, stands]
    rintro rfl
    exact free stands
  constructor
  · rw [Tree.put, List.map_append, List.nodup_append]
    refine ⟨wellFormed.distinct.sublist (List.filter_sublist.map _), by simp, ?_⟩
    rintro _ early _ last rfl
    obtain ⟨other, member, rfl⟩ := List.mem_map.mp early
    simpa [List.mem_singleton.mp last] using (List.mem_filter.mp member).2
  · intro other member
    rcases List.mem_append.mp member with early | last
    · obtain ⟨front, last, shape, proper, directory⟩ :=
        wellFormed.placed other (List.mem_filter.mp early).1
      exact ⟨front, last, shape, proper, stays directory⟩
    · cases List.mem_singleton.mp last
      exact ⟨above, name, rfl, proper, stays directory⟩
  · intro place target member
    rcases List.mem_append.mp member with early | last
    · exact wellFormed.linked place target (List.mem_filter.mp early).1
    · exact linked target (Prod.mk.inj (List.mem_singleton.mp last)).2.symm

/-- A file or a directory may be put under a proper name where nothing stands. -/
theorem put (wellFormed : tree.WellFormed) (directory : tree.get? above = some .directory)
    (proper : IsProper name) (absent : tree.get? (above ++ [name]) = none)
    (unlinked : ∀ target, entry ≠ .link target) :
    (tree.put (above ++ [name]) entry).WellFormed :=
  wellFormed.replace directory proper (by simp [absent])
    fun target same => absurd same (unlinked target)

/-! ### Walking straight -/

/-- Directories lead on along their names. -/
theorem stride_append (wellFormed : tree.WellFormed)
    (directory : tree.get? (place ++ names) = some .directory) (rest : List String) :
    tree.stride lenience place (names ++ rest) = tree.stride lenience (place ++ names) rest := by
  induction names generalizing place with
  | nil => simp
  | cons name names induction =>
      rw [List.append_cons] at directory ⊢
      have proper := wellFormed.proper directory name (by simp)
      have stands : tree.get? (place ++ [name]) = some .directory := by
        by_cases last : place ++ [name] = place ++ [name] ++ names
        · rw [last, directory]
        · exact wellFormed.directory_of_prefix directory (List.prefix_append _ _) last
      have above := (wellFormed.placed_of_stands stands).2
      rw [List.cons_append, stride_on above proper.1 (by simp [proper.2.2]) stands (by simp),
        induction directory]

theorem stride_eq_arrived (wellFormed : tree.WellFormed)
    (stands : tree.get? (place ++ names) = some entry) (unlinked : ∀ target, entry ≠ .link target) :
    tree.stride lenience place names = .arrived (place ++ names) := by
  rcases List.eq_nil_or_concat names with rfl | ⟨front, last, shape⟩
  · rw [stride, List.append_nil]
  rw [List.concat_eq_append] at shape
  subst shape
  rw [← List.append_assoc] at stands ⊢
  obtain ⟨proper, directory⟩ := wellFormed.placed_of_stands stands
  rw [wellFormed.stride_append directory,
    stride_on directory proper.1 (by simp [proper.2.2]) stands unlinked, stride]

/-- A path that leads to a directory leads on, along the names of the directories below, to
everything below that is no link. -/
theorem walk_append (wellFormed : tree.WellFormed) (arrives : tree.walk .strict path = .ok place)
    (stands : tree.get? (place ++ names) = some entry) (unlinked : ∀ target, entry ≠ .link target)
    (fine : flaw? (path.under names) = none) :
    tree.walk .strict (path.under names) = .ok (place ++ names) := by
  cases names with
  | nil => simpa [Path.under] using arrives
  | cons name names =>
      obtain ⟨left, same⟩ := exists_walk_under arrives fine .strict
      rw [same, walkFrom, wellFormed.stride_eq_arrived stands unlinked]

/-- Such a path has its last name in the directory above. -/
theorem holder_append (wellFormed : tree.WellFormed) (arrives : tree.walk .strict path = .ok place)
    (stands : tree.get? (place ++ names ++ [name]) = some entry)
    (fine : flaw? (path.under (names ++ [name])) = none) :
    tree.holder (path.under (names ++ [name])) = .ok (some (place ++ names, name)) := by
  obtain ⟨proper, directory⟩ := wellFormed.placed_of_stands stands
  rw [← Path.child_under] at fine ⊢
  obtain ⟨-, arrives⟩ := walk_eq_ok_iff.mp
    (wellFormed.walk_append arrives directory (by simp) (flaw?_of_child fine))
  rw [holder, fine]
  simp only [Path.child, List.getLast?_concat, List.dropLast_concat]
  rw [arrives]
  simp [directory, proper.2.2]

end WellFormed

end Tree

end CallGraph
