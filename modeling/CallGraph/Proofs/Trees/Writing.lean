import CallGraph.Tree.Basic

/-!
# Reading what was written

A file that was written is read under the path under which it was written, whatever links lead
there.  What was read under another path is read again, unless that path leads to the same file.

A walk stays on firm ground: above every place it comes to there are directories only, and the place
itself is no link.  So a file that is put where a walk has ended changes no walk.
-/

namespace CallGraph.Tree

variable {tree after : Tree} {lenience : Lenience} {links : Nat} {place spot target : Place}
  {entry : Entry} {names : List String} {path other : Path} {bytes found : ByteArray}

/-! ## What stands at a place -/

theorem lookup_filter (entries : List (Place × Entry)) (keeps : Place → Bool) (place : Place) :
    (entries.filter fun other => keeps other.1).lookup place =
      if keeps place then entries.lookup place else none := by
  induction entries with
  | nil => simp
  | cons other entries induction =>
      obtain ⟨spot, entry⟩ := other
      rw [List.filter_cons, List.lookup_cons]
      by_cases same : place = spot
      · subst same
        cases kept : keeps place <;> simp [induction, kept]
      · have different := beq_false_of_ne same
        cases kept : keeps spot <;> simp [List.lookup_cons, different, induction]

theorem get?_put (tree : Tree) (entry : Entry) (nonempty : place ≠ []) (target : Place) :
    (tree.put place entry).get? target =
      if target = place then some entry else tree.get? target := by
  rw [get?, get?, put, List.lookup_append, lookup_filter _ (· != place), List.lookup_cons]
  by_cases same : target = place
  · subst same
    simp [nonempty]
  · simp [same, beq_false_of_ne same]

/-! ## One name further -/

theorem stride_up (directory : tree.get? place = some .directory) :
    tree.stride lenience place (".." :: names) = tree.stride lenience place.dropLast names := by
  rw [stride, if_neg (fun other => other directory), if_pos rfl]

theorem stride_link {name : String} (directory : tree.get? place = some .directory)
    (notUp : name ≠ "..") (short : ¬ isTooLong name)
    (isLink : tree.get? (place ++ [name]) = some (.link path)) :
    tree.stride lenience place (name :: names) =
      .turned (if path.isAbsolute then [] else place) (path.names ++ names) := by
  rw [stride, if_neg (fun other => other directory), if_neg notUp, if_neg short, isLink]

theorem stride_absent {name : String} (directory : tree.get? place = some .directory)
    (notUp : name ≠ "..") (short : ¬ isTooLong name) (absent : tree.get? (place ++ [name]) = none) :
    tree.stride lenience place [name] =
      if lenience = .lastName then .arrived (place ++ [name]) else .stopped .absent := by
  rw [stride, if_neg (fun other => other directory), if_neg notUp, if_neg short, absent]
  simp

theorem stride_on {name : String} (directory : tree.get? place = some .directory)
    (notUp : name ≠ "..") (short : ¬ isTooLong name)
    (stands : tree.get? (place ++ [name]) = some entry) (notLink : ∀ path, entry ≠ .link path) :
    tree.stride lenience place (name :: names) = tree.stride lenience (place ++ [name]) names := by
  rw [stride, if_neg (fun other => other directory), if_neg notUp, if_neg short, stands]
  split
  · next path same => exact absurd (Option.some.inj same) (notLink path)
  · rfl
  · next absent => cases absent

/-! ## Firm ground -/

/-- A place that a walk may come to: above it there are directories only, and it is no link. -/
structure Firm (tree : Tree) (place : Place) : Prop where
  /-- Directories lead to the place. -/
  above : ∀ front, front <+: place → front ≠ place → tree.get? front = some .directory
  /-- The place is no link. -/
  unlinked : ∀ target, tree.get? place ≠ some (.link target)

namespace Firm

theorem top (tree : Tree) : tree.Firm [] := by
  constructor
  · intro front isPrefix different
    exact absurd (List.prefix_nil.mp isPrefix) different
  · intro target
    exact nofun

theorem dropLast (firm : tree.Firm place) : tree.Firm place.dropLast := by
  rcases List.eq_nil_or_concat place with rfl | ⟨front, name, shape⟩
  · exact firm
  rw [List.concat_eq_append] at shape
  subst shape
  have directory : tree.get? front = some .directory :=
    firm.above front (List.prefix_append _ _) (by simp)
  rw [List.dropLast_concat]
  constructor
  · intro other isPrefix different
    refine firm.above other (isPrefix.trans (List.prefix_append _ _)) ?_
    rintro rfl
    have bound := isPrefix.length_le
    rw [List.length_append, List.length_singleton] at bound
    omega
  · intro target
    rw [directory]
    exact nofun

theorem child (firm : tree.Firm place) {name : String}
    (directory : tree.get? place = some .directory)
    (unlinked : ∀ target, tree.get? (place ++ [name]) ≠ some (.link target)) :
    tree.Firm (place ++ [name]) := by
  refine ⟨fun front isPrefix different => ?_, unlinked⟩
  rcases List.prefix_concat_iff.mp isPrefix with same | isPrefix
  · exact absurd same different
  · by_cases same : front = place
    · rw [same, directory]
    · exact firm.above front isPrefix same

end Firm

/-- Where a stride leads, there is firm ground. -/
def Stride.IsFirm (tree : Tree) : Stride → Prop
  | .arrived place => tree.Firm place
  | .turned place _ => tree.Firm place
  | .stopped _ => True

theorem isFirm_stride (firm : tree.Firm place) :
    (tree.stride lenience place names).IsFirm tree := by
  fun_induction stride tree lenience place names with
  | case1 place => exact firm
  | case2 => trivial
  | case3 place names directory induction => exact induction firm.dropLast
  | case4 => trivial
  | case5 place name names directory notUp short target isLink =>
      change tree.Firm _
      split
      · exact .top tree
      · exact firm
  | case6 place name names directory notUp short other notLink stands induction =>
      refine induction (firm.child (Decidable.not_not.mp directory) fun target isLink => ?_)
      exact notLink target (Option.some.inj (stands.symm.trans isLink))
  | case7 place name names directory notUp short absent =>
      exact firm.child (Decidable.not_not.mp directory) fun target isLink => by
        rw [absent] at isLink
        cases isLink
  | case8 => trivial

theorem firm_of_walkFrom (firm : tree.Firm place)
    (arrives : tree.walkFrom lenience links place names = .ok spot) : tree.Firm spot := by
  have ground := @isFirm_stride tree lenience place names firm
  fun_induction walkFrom tree lenience links place names with
  | case1 links place names target went =>
      cases arrives
      rwa [went] at ground
  | case2 => cases arrives
  | case3 => cases arrives
  | case4 place names next more went links induction =>
      rw [went] at ground
      exact induction ground arrives (isFirm_stride ground)

/-! ## A file that is put somewhere -/

/-- A place where a file may be put: neither a directory nor a link stands there. -/
structure Vacant (tree : Tree) (spot : Place) : Prop where
  /-- No directory stands there. -/
  noDirectory : tree.get? spot ≠ some .directory
  /-- No link stands there. -/
  unlinked : ∀ target, tree.get? spot ≠ some (.link target)

namespace Vacant

theorem ne_nil (vacant : tree.Vacant spot) : spot ≠ [] := by
  rintro rfl
  exact vacant.noDirectory rfl

theorem get?_put_self (vacant : tree.Vacant spot) (bytes : ByteArray) :
    (tree.put spot (.file bytes)).get? spot = some (.file bytes) := by
  rw [get?_put tree _ vacant.ne_nil, if_pos rfl]

theorem get?_put_of_ne (vacant : tree.Vacant spot) (bytes : ByteArray) (different : place ≠ spot) :
    (tree.put spot (.file bytes)).get? place = tree.get? place := by
  rw [get?_put tree _ vacant.ne_nil, if_neg different]

theorem get?_put_directory (vacant : tree.Vacant spot) (bytes : ByteArray)
    (directory : tree.get? place = some .directory) :
    (tree.put spot (.file bytes)).get? place = some .directory := by
  rw [vacant.get?_put_of_ne bytes, directory]
  rintro rfl
  exact vacant.noDirectory directory

theorem get?_put_link (vacant : tree.Vacant spot) (bytes : ByteArray)
    (isLink : tree.get? place = some (.link path)) :
    (tree.put spot (.file bytes)).get? place = some (.link path) := by
  rw [vacant.get?_put_of_ne bytes, isLink]
  rintro rfl
  exact vacant.unlinked path isLink

/-- What stood at a place, if that was no link, is not replaced by nothing or by a link. -/
theorem exists_get?_put (vacant : tree.Vacant spot) (bytes : ByteArray)
    (stands : place = spot ∨
      ∃ entry, tree.get? place = some entry ∧ ∀ target, entry ≠ .link target) :
    ∃ entry, (tree.put spot (.file bytes)).get? place = some entry ∧
      ∀ target, entry ≠ .link target := by
  by_cases same : place = spot
  · subst same
    exact ⟨_, vacant.get?_put_self bytes, by simp⟩
  · rw [vacant.get?_put_of_ne bytes same]
    exact stands.resolve_left same

end Vacant

/-- A stride that goes on, or arrives where something stands or the file was put, does the same
afterwards. -/
def Stride.Persists (tree : Tree) (spot : Place) : Stride → Stride → Prop
  | .arrived place, again => place = spot ∨ (tree.get? place).isSome → again = .arrived place
  | .turned place names, again => again = .turned place names
  | .stopped _, _ => True

theorem persists_stride (vacant : tree.Vacant spot) (bytes : ByteArray) :
    (tree.stride lenience place names).Persists tree spot
      ((tree.put spot (.file bytes)).stride .strict place names) := by
  fun_induction stride tree lenience place names with
  | case1 place => exact fun _ => rfl
  | case2 => exact True.intro
  | case3 place names directory induction =>
      rw [stride_up (vacant.get?_put_directory bytes (Decidable.not_not.mp directory))]
      exact induction
  | case4 => exact True.intro
  | case5 place name names directory notUp short target isLink =>
      exact stride_link (vacant.get?_put_directory bytes (Decidable.not_not.mp directory)) notUp
        short (vacant.get?_put_link bytes isLink)
  | case6 place name names directory notUp short other notLink stands induction =>
      obtain ⟨entry, stands, notLink⟩ :=
        vacant.exists_get?_put bytes (.inr ⟨other, stands, notLink⟩)
      rw [stride_on (vacant.get?_put_directory bytes (Decidable.not_not.mp directory)) notUp short
        stands notLink]
      exact induction
  | case7 place name names directory notUp short absent last =>
      -- nothing stands there, so it is where the file was put
      obtain ⟨-, rfl⟩ := last
      intro arrived
      have same : place ++ [name] = spot := by simpa [absent] using arrived
      obtain ⟨entry, stands, notLink⟩ := vacant.exists_get?_put bytes (.inl same)
      rw [stride_on (vacant.get?_put_directory bytes (Decidable.not_not.mp directory)) notUp short
        stands notLink, stride]
  | case8 => exact True.intro

/-- A walk that arrives where something stands, or where the file was put, arrives there again. -/
theorem walkFrom_put (vacant : tree.Vacant spot) (bytes : ByteArray)
    (arrives : tree.walkFrom lenience links place names = .ok target)
    (stands : target = spot ∨ (tree.get? target).isSome) :
    (tree.put spot (.file bytes)).walkFrom .strict links place names = .ok target := by
  have again := @persists_stride tree lenience place spot names vacant bytes
  fun_induction walkFrom tree lenience links place names with
  | case1 links place names goal went =>
      cases arrives
      rw [went] at again
      rw [walkFrom, again stands]
  | case2 => cases arrives
  | case3 => cases arrives
  | case4 place names next more went links induction =>
      rw [went] at again
      rw [walkFrom, show Tree.stride _ _ _ _ = _ from again]
      exact induction arrives (persists_stride vacant bytes)

/-- A path leads somewhere if it can be looked up and its names lead there from the top. -/
theorem walk_eq_ok_iff :
    tree.walk lenience path = .ok target ↔
      flaw? path = none ∧ tree.walkFrom lenience linkLimit [] path.names = .ok target := by
  rw [walk]
  cases flaw? path <;> simp

theorem walk_put (vacant : tree.Vacant spot) (bytes : ByteArray)
    (arrives : tree.walk lenience path = .ok target)
    (stands : target = spot ∨ (tree.get? target).isSome) :
    (tree.put spot (.file bytes)).walk .strict path = .ok target := by
  obtain ⟨fine, arrives⟩ := walk_eq_ok_iff.mp arrives
  exact walk_eq_ok_iff.mpr ⟨fine, walkFrom_put vacant bytes arrives stands⟩

theorem firm_of_walk (arrives : tree.walk lenience path = .ok target) : tree.Firm target :=
  firm_of_walkFrom (.top tree) (walk_eq_ok_iff.mp arrives).2

/-! ## Writing and reading -/

theorem read_eq_ok_iff :
    tree.read path = .ok found ↔
      ∃ place, tree.walk .strict path = .ok place ∧ tree.get? place = some (.file found) := by
  unfold read
  cases tree.walk .strict path with
  | error => simp
  | ok place =>
      simp only [Except.ok.injEq, exists_eq_left']
      split
      · next stands => rw [stands, Except.ok.injEq, Option.some.injEq, Entry.file.injEq]
      · next stands different => simp_all
      · next absent => simp [absent]

/-- A file is written where a walk leads to no directory. -/
theorem write_eq (path : Path) (bytes : ByteArray) (tree : Tree) :
    write path bytes tree = match tree.walk .lastName path with
      | .error error => .error error tree
      | .ok spot =>
          if tree.get? spot = some .directory then .error .isDirectory tree
          else .ok () (tree.put spot (.file bytes)) := by
  change (match tree.walk .lastName path with
    | .error error => (throw error : Action Unit)
    | .ok spot => do
        if tree.get? spot = some Entry.directory then throw TreeError.isDirectory
        set (tree.put spot (.file bytes))) tree = _
  cases tree.walk .lastName path with
  | error => rfl
  | ok spot =>
      dsimp only
      split <;> rfl

theorem write_eq_ok_iff :
    write path bytes tree = .ok () after ↔
      ∃ spot, tree.walk .lastName path = .ok spot ∧ tree.get? spot ≠ some .directory ∧
        after = tree.put spot (.file bytes) := by
  rw [write_eq]
  cases tree.walk .lastName path with
  | error => simp
  | ok spot =>
      simp only [Except.ok.injEq, exists_eq_left']
      split
      · next directory => simp [directory]
      · next noDirectory => simp [noDirectory, eq_comm]

theorem Vacant.of_walk (arrives : tree.walk lenience path = .ok spot)
    (noDirectory : tree.get? spot ≠ some .directory) : tree.Vacant spot :=
  ⟨noDirectory, (firm_of_walk arrives).unlinked⟩

/-- What was written is read. -/
theorem read_of_write (written : write path bytes tree = .ok () after) :
    after.read path = .ok bytes := by
  obtain ⟨spot, arrives, noDirectory, rfl⟩ := write_eq_ok_iff.mp written
  have vacant := Vacant.of_walk arrives noDirectory
  exact read_eq_ok_iff.mpr
    ⟨spot, walk_put vacant bytes arrives (.inl rfl), vacant.get?_put_self bytes⟩

/-- A path that leads to a file leads there again after a file was written. -/
theorem walk_of_write (written : write path bytes tree = .ok () after)
    (read : tree.read other = .ok found) :
    after.walk .strict other = tree.walk .strict other := by
  obtain ⟨spot, arrives, noDirectory, rfl⟩ := write_eq_ok_iff.mp written
  have vacant := Vacant.of_walk arrives noDirectory
  obtain ⟨place, leads, stands⟩ := read_eq_ok_iff.mp read
  rw [leads]
  exact walk_put vacant bytes leads (.inr (by rw [stands]; rfl))

/-- A path that leads to a file does so again after a file was written, and to the same bytes if the
file was written elsewhere. -/
theorem exists_read_of_write (written : write path bytes tree = .ok () after)
    (read : tree.read other = .ok found) :
    ∃ again, after.read other = .ok again ∧
      (after.walk .strict other ≠ after.walk .strict path → again = found) := by
  have leads := walk_of_write written read
  obtain ⟨spot, arrives, noDirectory, rfl⟩ := write_eq_ok_iff.mp written
  have vacant := Vacant.of_walk arrives noDirectory
  obtain ⟨place, arrived, stands⟩ := read_eq_ok_iff.mp read
  rw [arrived] at leads
  by_cases same : place = spot
  · subst same
    refine ⟨bytes, read_eq_ok_iff.mpr ⟨place, leads, vacant.get?_put_self bytes⟩, ?_⟩
    exact fun apart => absurd (leads.trans (walk_put vacant bytes arrives (.inl rfl)).symm) apart
  · refine ⟨found, read_eq_ok_iff.mpr ⟨place, leads, ?_⟩, fun _ => rfl⟩
    rw [vacant.get?_put_of_ne bytes same, stands]

/-! ## The directory of a file -/

/-- A stride along a path goes as the stride along its beginning goes. -/
theorem stride_append_cons (name : String) (more : List String) :
    tree.stride lenience place (names ++ name :: more) =
      match tree.stride .strict place names with
      | .arrived directory => tree.stride lenience directory (name :: more)
      | .turned next names => .turned next (names ++ name :: more)
      | .stopped error => .stopped error := by
  fun_induction stride tree .strict place names with
  | case1 place => rfl
  | case2 place other names noDirectory =>
      rw [List.cons_append, stride, if_pos noDirectory]
  | case3 place names directory induction =>
      rw [List.cons_append, stride_up (Decidable.not_not.mp directory), induction]
  | case4 place other names directory notUp long =>
      rw [List.cons_append, stride, if_neg directory, if_neg notUp, if_pos long]
  | case5 place other names directory notUp short target isLink =>
      rw [List.cons_append, stride_link (Decidable.not_not.mp directory) notUp short isLink,
        ← List.append_assoc]
  | case6 place other names directory notUp short entry notLink stands induction =>
      rw [List.cons_append, stride_on (Decidable.not_not.mp directory) notUp short stands notLink,
        induction]
  | case7 place other names directory notUp short absent last => cases last.1
  | case8 place other names directory notUp short absent notLast =>
      rw [List.cons_append, stride, if_neg directory, if_neg notUp, if_neg short, absent]
      exact if_neg fun last => by simpa using last.2

/-- A walk to a name in a directory leads through the directory. -/
theorem exists_directory_of_walkFrom {name : String}
    (arrives : tree.walkFrom lenience links place (names ++ [name]) = .ok target) :
    ∃ directory, tree.walkFrom .strict links place names = .ok directory ∧
      tree.get? directory = some .directory := by
  fun_induction walkFrom tree .strict links place names with
  | case1 links place names directory went =>
      rw [walkFrom, stride_append_cons, went] at arrives
      refine ⟨directory, rfl, Decidable.byContradiction fun noDirectory => ?_⟩
      dsimp only at arrives
      rw [stride, if_pos noDirectory] at arrives
      cases arrives
  | case2 links place names error went =>
      rw [walkFrom, stride_append_cons, went] at arrives
      cases arrives
  | case3 place names next more went =>
      rw [walkFrom, stride_append_cons, went] at arrives
      cases arrives
  | case4 place names next more went links induction =>
      rw [walkFrom, stride_append_cons, went] at arrives
      exact induction arrives

theorem render_child (path : Path) (name : String) :
    (path.child name).render = path.anchor ++ "/".intercalate (path.names ++ [name]) := by
  simp [Path.render, Path.child]

/-- A path is not longer than one that goes on, unless it is a dot. -/
theorem utf8ByteSize_render_le (path : Path) (name : String) :
    path.render.utf8ByteSize ≤ max 1 (path.child name).render.utf8ByteSize := by
  rw [render_child, Path.render]
  split
  · exact Nat.le_max_left _ _
  refine Nat.le_trans ?_ (Nat.le_max_right _ _)
  by_cases present : path.names = []
  · simp only [present, String.intercalate_nil, String.utf8ByteSize_append,
      String.utf8ByteSize_empty]
    omega
  · rw [String.intercalate_append_of_ne_nil present (List.cons_ne_nil _ _)]
    simp only [String.utf8ByteSize_append]
    omega

theorem flaw?_eq_none_iff :
    flaw? path = none ↔ path.names.all isName = true ∧ path.render.utf8ByteSize ≤ pathLimit := by
  unfold flaw?
  cases path.names.all isName with
  | false => simp
  | true =>
      rw [if_neg (by decide)]
      split
      · next long => simp [Nat.not_le.mpr long]
      · next short => simp [Nat.not_lt.mp short]

theorem flaw?_of_child {name : String} (fine : flaw? (path.child name) = none) :
    flaw? path = none := by
  obtain ⟨isNames, short⟩ := flaw?_eq_none_iff.mp fine
  have bound := utf8ByteSize_render_le path name
  have limit : 1 ≤ pathLimit := by decide
  rw [Path.child, List.all_append, Bool.and_eq_true] at isNames
  exact flaw?_eq_none_iff.mpr ⟨isNames.1, by omega⟩

/-- A path that leads somewhere leads through a directory. -/
theorem look_of_walk_child {name : String}
    (arrives : tree.walk lenience (path.child name) = .ok target) :
    tree.look path = .ok (some .directory) := by
  obtain ⟨fine, arrives⟩ := walk_eq_ok_iff.mp arrives
  obtain ⟨directory, arrives, stands⟩ := exists_directory_of_walkFrom arrives
  rw [look, walk_eq_ok_iff.mpr ⟨flaw?_of_child fine, arrives⟩]
  exact congrArg Except.ok stands

end CallGraph.Tree
