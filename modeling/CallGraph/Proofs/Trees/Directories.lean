import CallGraph.Proofs.Trees.Growing

/-!
# Making directories

A directory is made where nothing stands, together with those above it that are not there.  Nothing
else changes.
-/

namespace CallGraph.Tree

variable {tree middle after : Tree} {place spot : Place} {path : Path} {error : TreeError}
  {added more : List (Place × Entry)} {name : String}

/-! ## One directory -/

theorem makeEntry_run (path : Path) (entry : Entry) (tree : Tree) :
    makeEntry path entry tree = match tree.holder path with
      | .error error => .error error tree
      | .ok none => .error TreeError.taken tree
      | .ok (some (above, name)) =>
          if name = ".." ∨ (tree.get? (above ++ [name])).isSome then .error TreeError.taken tree
          else .ok () (tree.put (above ++ [name]) entry) := by
  change (match tree.holder path with
    | .error error => (throw error : Action Unit)
    | .ok none => throw TreeError.taken
    | .ok (some (above, name)) => do
        if name = ".." ∨ (tree.get? (above ++ [name])).isSome then throw TreeError.taken
        set (tree.put (above ++ [name]) entry)) tree = _
  split
  · next held => rw [held]; rfl
  · next held => rw [held]; rfl
  · next above name held =>
      rw [held]
      dsimp only
      split <;> rfl

/-- An entry is made in a directory that is there, where nothing stands. -/
theorem makeEntry_eq_ok_iff {entry : Entry} :
    makeEntry path entry tree = .ok () after ↔
      ∃ above name, tree.holder path = .ok (some (above, name)) ∧ name ≠ ".." ∧
        tree.get? (above ++ [name]) = none ∧ after = tree.put (above ++ [name]) entry := by
  rw [makeEntry_run]
  constructor
  · intro made
    split at made
    · cases made
    · cases made
    · next above name held =>
        split at made
        · cases made
        · next free =>
            cases made
            rw [not_or, Option.not_isSome_iff_eq_none] at free
            exact ⟨above, name, held, free.1, free.2, rfl⟩
  · rintro ⟨above, name, held, notUp, absent, rfl⟩
    simp [held, notUp, absent]

theorem makeDirectory_eq_ok_iff :
    makeDirectory path tree = .ok () after ↔
      ∃ above name, tree.holder path = .ok (some (above, name)) ∧ name ≠ ".." ∧
        tree.get? (above ++ [name]) = none ∧ after = tree.put (above ++ [name]) .directory :=
  makeEntry_eq_ok_iff

/-- A directory that cannot be made leaves the tree as it was. -/
theorem makeDirectory_of_error (failed : makeDirectory path tree = .error error after) :
    after = tree ∧ (error = .taken ∨ tree.holder path = .error error) := by
  rw [makeDirectory, makeEntry_run] at failed
  split at failed
  · next held =>
      cases failed
      exact ⟨rfl, .inr held⟩
  · cases failed
    exact ⟨rfl, .inl rfl⟩
  · split at failed
    · cases failed
      exact ⟨rfl, .inl rfl⟩
    · cases failed

theorem unlessDirectory_eq_ok_iff :
    unlessDirectory path error tree = .ok () after ↔
      tree.look path = .ok (some .directory) ∧ after = tree := by
  unfold unlessDirectory
  split
  · next found => simp [found, eq_comm]
  · next different found =>
      refine ⟨nofun, fun ⟨same, _⟩ => ?_⟩
      rw [found, Except.ok.injEq] at same
      exact absurd same different
  · next other failed => simp [failed]

/-- A directory that is required is made, or is there. -/
theorem requireDirectory_cases (made : requireDirectory path tree = .ok () after) :
    makeDirectory path tree = .ok () after ∨
      tree.look path = .ok (some .directory) ∧ after = tree := by
  unfold requireDirectory at made
  split at made
  · next tried =>
      cases made
      exact .inl tried
  · next tried =>
      rw [(makeDirectory_of_error tried).1] at made
      exact .inr (unlessDirectory_eq_ok_iff.mp made)

/-- A directory that is required with those above it is made, or it is required once more after
those above it, or is there. -/
theorem requireNames_cases {above : List String}
    (made : requireNames (name :: above) tree = .ok () after) :
    makeDirectory ⟨"/", (name :: above).reverse⟩ tree = .ok () after ∨
      (tree.holder ⟨"/", (name :: above).reverse⟩ = .error .absent ∧
        ∃ middle, requireNames above tree = .ok () middle ∧
          requireDirectory ⟨"/", (name :: above).reverse⟩ middle = .ok () after) ∨
      tree.look ⟨"/", (name :: above).reverse⟩ = .ok (some .directory) ∧ after = tree := by
  rw [requireNames] at made
  dsimp only at made
  split at made
  · next tried =>
      cases made
      exact .inl tried
  · next tried =>
      obtain ⟨rfl, held⟩ := makeDirectory_of_error tried
      split at made
      · next middle above => exact .inr (.inl ⟨held.resolve_left nofun, _, above, made⟩)
      · cases made
  · next tried =>
      rw [(makeDirectory_of_error tried).1] at made
      exact .inr (.inr (unlessDirectory_eq_ok_iff.mp made))

theorem exists_of_holder {above : Place} (held : tree.holder path = .ok (some (above, name))) :
    flaw? path = none ∧ tree.walkFrom .strict linkLimit [] path.names.dropLast = .ok above ∧
      path.names.getLast? = some name ∧ tree.get? above = some .directory ∧
        isTooLong name = false := by
  unfold holder at held
  split at held
  · cases held
  · cases held
  · next last fine isLast =>
      split at held
      · cases held
      · next place arrives =>
          split at held
          · cases held
          · next directory =>
              split at held
              · cases held
              · next short =>
                  cases held
                  exact ⟨fine, arrives, isLast, Decidable.not_not.mp directory,
                    by simpa using short⟩

/-- What may be made at a path gets a proper name in a directory. -/
theorem proper_of_holder {above : Place} (held : tree.holder path = .ok (some (above, name)))
    (notUp : name ≠ "..") : tree.get? above = some .directory ∧ IsProper name := by
  obtain ⟨fine, -, isLast, directory, short⟩ := exists_of_holder held
  have isName : isName name = true :=
    List.all_eq_true.mp (flaw?_eq_none_iff.mp fine).1 name (List.mem_of_getLast? isLast)
  exact ⟨directory, notUp, isName, short⟩

/-- A name more leads to what stands in a directory. -/
theorem walk_of_dropLast (fine : flaw? path = none) (isLast : path.names.getLast? = some name)
    (arrives : tree.walkFrom .strict linkLimit [] path.names.dropLast = .ok place) :
    ∃ left, tree.walk .strict path = tree.walkFrom .strict left place [name] := by
  obtain ⟨left, same⟩ := exists_walkFrom_append .strict name [] arrives
  rw [List.dropLast_append_getLast? name isLast] at same
  refine ⟨left, ?_⟩
  rw [walk, fine]
  exact same

theorem get?_put_concat (tree : Tree) (above : Place) (name : String) (entry : Entry) :
    (tree.put (above ++ [name]) entry).get? (above ++ [name]) = some entry := by
  rw [get?_put tree _ (by simp), if_pos rfl]

/-- A path to a new directory leads to it once it was made. -/
theorem walk_of_holder {above : Place} (held : tree.holder path = .ok (some (above, name)))
    (notUp : name ≠ "..") (absent : tree.get? (above ++ [name]) = none) :
    (tree.put (above ++ [name]) .directory).walk .strict path = .ok (above ++ [name]) := by
  obtain ⟨fine, arrives, isLast, directory, short⟩ := exists_of_holder held
  have grows := GrowsTo.put absent .directory
  have same := (walkFrom_of_grows grows linkLimit [] path.names.dropLast).resolve_left
    (by simp [arrives])
  obtain ⟨left, walked⟩ := walk_of_dropLast fine isLast (same.trans arrives)
  rw [walked, walkFrom, stride_on (grows.stays directory) notUp (by simp [short])
    (get?_put_concat tree above name .directory) (by simp), stride]

/-! ## On the way -/

/-- A place on the way of a path: names at the beginning of the path lead there. -/
def OnWay (tree : Tree) (path : Path) (place : Place) : Prop :=
  ∃ names, names <+: path.names ∧ tree.walk .strict ⟨"/", names⟩ = .ok place

/-- What is on the way of a path is on the way of every path that leads on. -/
theorem OnWay.mono {other : Path} (onWay : tree.OnWay path place)
    (isPrefix : path.names <+: other.names) : tree.OnWay other place := by
  obtain ⟨names, begins, leads⟩ := onWay
  exact ⟨names, begins.trans isPrefix, leads⟩

theorem OnWay.of_grows (onWay : tree.OnWay path place) (grows : tree.GrowsTo after added) :
    after.OnWay path place := by
  obtain ⟨names, begins, leads⟩ := onWay
  exact ⟨names, begins, walk_of_grows_ok grows leads⟩

/-- A directory on the way of a path is there, and still on the way, when a file was written. -/
theorem onWay_of_write {other : Path} {bytes : ByteArray}
    (written : write path bytes tree = .ok () after) (directory : tree.get? place = some .directory)
    (onWay : tree.OnWay other place) :
    after.get? place = some .directory ∧ after.OnWay other place := by
  obtain ⟨spot, arrives, noDirectory, rfl⟩ := write_eq_ok_iff.mp written
  have vacant := Vacant.of_walk arrives noDirectory
  obtain ⟨names, begins, leads⟩ := onWay
  exact ⟨vacant.get?_put_directory bytes directory, names, begins,
    walk_put vacant bytes leads (.inr (by rw [directory]; rfl))⟩

/-! ## Directories with those above them -/

/-- Directories were added to a tree, all of them on the way of a path. -/
structure MakesWay (tree after : Tree) (path : Path) (added : List (Place × Entry)) : Prop where
  /-- Nothing stood where they were added. -/
  grows : tree.GrowsTo after added
  /-- They are directories on the way. -/
  onWay : ∀ other ∈ added, other.2 = .directory ∧ after.OnWay path other.1

namespace MakesWay

theorem refl (tree : Tree) (path : Path) : tree.MakesWay tree path [] := ⟨.refl tree, nofun⟩

theorem trans {longer : Path} (first : tree.MakesWay middle path added)
    (second : middle.MakesWay after longer more) (isPrefix : path.names <+: longer.names) :
    tree.MakesWay after longer (added ++ more) where
  grows := first.grows.trans second.grows
  onWay other member := by
    rcases List.mem_append.mp member with early | late
    · obtain ⟨directory, onWay⟩ := first.onWay other early
      exact ⟨directory, (onWay.of_grows second.grows).mono isPrefix⟩
    · exact second.onWay other late

/-- Every place is as it was, or a new directory on the way. -/
theorem get?_cases (way : tree.MakesWay after path added) (place : Place) :
    after.get? place = tree.get? place ∨
      tree.get? place = none ∧ after.get? place = some .directory ∧ after.OnWay path place := by
  rw [way.grows.get?_eq]
  cases stood : tree.get? place with
  | some entry => exact .inl rfl
  | none =>
      cases found : added.lookup place with
      | none => exact .inl rfl
      | some entry =>
          obtain ⟨rfl, onWay⟩ := way.onWay _ (mem_of_lookup found)
          exact .inr ⟨rfl, rfl, onWay⟩

theorem of_makeDirectory {names : List String}
    (made : makeDirectory ⟨"/", names⟩ tree = .ok () after) :
    ∃ added, tree.MakesWay after ⟨"/", names⟩ added := by
  obtain ⟨above, name, held, notUp, absent, rfl⟩ := makeDirectory_eq_ok_iff.mp made
  refine ⟨_, .put absent .directory, fun other member => ?_⟩
  rw [List.mem_singleton.mp member]
  exact ⟨rfl, names, List.prefix_rfl, walk_of_holder held notUp absent⟩

/-- Making a directory with those above it adds directories on the way to it only. -/
theorem of_requireNames {names : List String} (made : requireNames names tree = .ok () after) :
    ∃ added, tree.MakesWay after ⟨"/", names.reverse⟩ added := by
  induction names generalizing after with
  | nil =>
      cases made
      exact ⟨[], .refl tree _⟩
  | cons name above induction =>
      rcases requireNames_cases made with made | ⟨-, middle, first, second⟩ | ⟨-, rfl⟩
      · exact of_makeDirectory made
      · obtain ⟨added, before⟩ := induction first
        have isPrefix : above.reverse <+: (name :: above).reverse := by simp
        rcases requireDirectory_cases second with made | ⟨-, rfl⟩
        · obtain ⟨more, last⟩ := of_makeDirectory made
          exact ⟨_, before.trans last isPrefix⟩
        · exact ⟨_, before.trans (.refl after _) isPrefix⟩
      · exact ⟨[], .refl after _⟩

end MakesWay

/-- A path leads to a directory that was made with those above it: only directories on the way to
it were added, and it is one of them. -/
structure MadeAt (tree after : Tree) (path : Path) (spot : Place) (added : List (Place × Entry)) :
    Prop where
  /-- Directories were added. -/
  grows : tree.GrowsTo after added
  /-- The tree is still well-formed. -/
  wellFormed : after.WellFormed
  /-- The path leads to the directory. -/
  leads : after.walk .strict path = .ok spot
  /-- The directory is there. -/
  stands : after.get? spot = some .directory
  /-- The directory was not there before. -/
  absent : tree.get? spot = none
  /-- All that was added leads to the directory. -/
  onWay : ∀ other ∈ added, other.2 = .directory ∧ other.1 <+: spot

theorem MadeAt.of_makeDirectory (wellFormed : tree.WellFormed)
    (made : makeDirectory path tree = .ok () after) :
    ∃ above name, tree.holder path = .ok (some (above, name)) ∧
      tree.MadeAt after path (above ++ [name]) [(above ++ [name], .directory)] := by
  obtain ⟨above, name, held, notUp, absent, rfl⟩ := makeDirectory_eq_ok_iff.mp made
  obtain ⟨directory, proper⟩ := proper_of_holder held notUp
  refine ⟨above, name, held, .put absent .directory,
    wellFormed.put directory proper absent nofun, walk_of_holder held notUp absent,
    get?_put_concat tree above name .directory, absent, fun other member => ?_⟩
  rw [List.mem_singleton.mp member]
  exact ⟨rfl, List.prefix_rfl⟩

/-- Nothing stands below a directory that was just made. -/
theorem MadeAt.absent_below (wellFormed : tree.WellFormed)
    (madeAt : tree.MadeAt after path spot added) (isPrefix : spot <+: place)
    (different : spot ≠ place) : after.get? place = none := by
  cases stands : after.get? place with
  | none => rfl
  | some entry =>
      have before := wellFormed.absent_below madeAt.absent isPrefix
      have onWay := (madeAt.onWay _ (madeAt.grows.mem_added before stands)).2
      exact absurd (isPrefix.eq_of_length_le onWay.length_le) different

theorem flaw?_ne_absent (path : Path) : flaw? path ≠ some .absent := by
  unfold flaw?
  split
  · nofun
  · split <;> nofun

/-- If no directory can be made for want of the one above it, the path to that one leads to
nothing. -/
theorem look_above_of_holder {names : List String}
    (held : tree.holder ⟨"/", names ++ [name]⟩ = .error .absent) :
    tree.look ⟨"/", names⟩ = .ok none := by
  unfold holder at held
  split at held
  · next error _ flawed =>
      cases held
      exact absurd flawed (flaw?_ne_absent _)
  · cases held
  · next last fine isLast =>
      have fine : flaw? (⟨"/", names⟩ : Path) = none := flaw?_of_child fine
      rw [look, walk, fine]
      simp only [List.dropLast_concat] at held
      split at held
      · next error lost =>
          cases held
          rw [lost]
          rfl
      · split at held
        · cases held
        · split at held <;> cases held

theorem exists_stopped (notUp : name ≠ "..") (absent : tree.get? (place ++ [name]) = none) :
    ∃ error, tree.stride .strict place [name] = .stopped error := by
  rw [stride, if_neg notUp]
  split
  · exact ⟨_, rfl⟩
  rw [absent]
  split
  · exact ⟨_, rfl⟩
  · exact ⟨.absent, if_neg (by simp)⟩

/-- A path does not lead on to a name that is not there. -/
theorem walk_child_ne_ok (arrives : tree.walk .strict path = .ok place) (notUp : name ≠ "..")
    (absent : tree.get? (place ++ [name]) = none) :
    tree.walk .strict (path.child name) ≠ .ok spot := by
  intro leads
  obtain ⟨left, same⟩ := @exists_walk_under _ _ name [] _ arrives (fine_of_walk leads) .strict
  obtain ⟨error, stopped⟩ := exists_stopped notUp absent
  rw [Path.child_eq_under, same, walkFrom, stopped] at leads
  cases leads

/-- A directory that was not there, and is required with those above it, is made. -/
theorem exists_madeAt_of_requireNames {names : List String} (wellFormed : tree.WellFormed)
    (noDots : ".." ∉ names) (missing : tree.look ⟨"/", names.reverse⟩ = .ok none)
    (made : requireNames names tree = .ok () after) :
    ∃ spot added, tree.MadeAt after ⟨"/", names.reverse⟩ spot added := by
  induction names generalizing after with
  | nil => cases missing
  | cons name above induction =>
      rcases requireNames_cases made with made | ⟨held, middle, first, second⟩ | ⟨found, -⟩
      · obtain ⟨place, last, -, madeAt⟩ := MadeAt.of_makeDirectory wellFormed made
        exact ⟨_, _, madeAt⟩
      · rw [List.reverse_cons] at held second ⊢
        obtain ⟨spot, added, madeAt⟩ := induction
          (fun member => noDots (List.mem_cons_of_mem _ member)) (look_above_of_holder held) first
        have arrives := (walk_eq_ok_iff.mp madeAt.leads).2
        rcases requireDirectory_cases second with made | ⟨found, -⟩
        · obtain ⟨place, last, held, lastAt⟩ := MadeAt.of_makeDirectory madeAt.wellFormed made
          obtain ⟨-, same, -⟩ := exists_of_holder held
          simp only [List.dropLast_concat] at same
          cases arrives.symm.trans same
          refine ⟨_, _, madeAt.grows.trans lastAt.grows, lastAt.wellFormed, lastAt.leads,
            lastAt.stands, wellFormed.absent_below madeAt.absent (List.prefix_append _ _),
            fun other member => ?_⟩
          rcases List.mem_append.mp member with early | late
          · obtain ⟨directory, onWay⟩ := madeAt.onWay other early
            exact ⟨directory, onWay.trans (List.prefix_append _ _)⟩
          · exact lastAt.onWay other late
        · -- the last one cannot be there, because the directory above it is new
          have nothing := madeAt.absent_below wellFormed (List.prefix_append spot [name]) (by simp)
          obtain ⟨goal, found, -⟩ := look_eq_some_iff.mp found
          exact absurd found (walk_child_ne_ok madeAt.leads
            (fun same => noDots (by rw [same]; exact List.mem_cons_self)) nothing)
      · rw [missing] at found
        cases found

/-- A directory that is there is not made again. -/
theorem requireNames_of_directory {names : List String} (wellFormed : tree.WellFormed)
    (found : tree.look ⟨"/", names.reverse⟩ = .ok (some .directory)) :
    requireNames names tree = .ok () tree := by
  cases names with
  | nil => rfl
  | cons name above =>
      obtain ⟨place, arrives, stands⟩ := look_eq_some_iff.mp found
      rw [requireNames]
      dsimp only
      split
      · next after made =>
          obtain ⟨holding, last, -, madeAt⟩ := MadeAt.of_makeDirectory wellFormed made
          cases (walk_of_grows_ok madeAt.grows arrives).symm.trans madeAt.leads
          cases stands.symm.trans madeAt.absent
      · next after tried =>
          have held := (makeDirectory_of_error tried).2.resolve_left nofun
          rw [List.reverse_cons] at held arrives
          have found : tree.look ⟨"/", above.reverse⟩ = .ok (some .directory) :=
            look_of_walk_child arrives
          cases (look_above_of_holder held).symm.trans found
      · next error after tried =>
          rw [(makeDirectory_of_error tried).1]
          exact unlessDirectory_eq_ok_iff.mpr ⟨found, rfl⟩

/-- The same for a path from the top. -/
theorem exists_madeAt_of_requireDirectories (wellFormed : tree.WellFormed)
    (absolute : path.anchor = "/") (noDots : ".." ∉ path.names)
    (missing : tree.look path = .ok none) (made : requireDirectories path tree = .ok () after) :
    ∃ spot added, tree.MadeAt after path spot added := by
  obtain ⟨anchor, names⟩ := path
  subst absolute
  have madeAt := @exists_madeAt_of_requireNames tree after names.reverse wellFormed
    (by rwa [List.mem_reverse]) (by rwa [List.reverse_reverse]) made
  rwa [List.reverse_reverse] at madeAt

theorem requireDirectories_of_directory (wellFormed : tree.WellFormed)
    (absolute : path.anchor = "/") (found : tree.look path = .ok (some .directory)) :
    requireDirectories path tree = .ok () tree := by
  obtain ⟨anchor, names⟩ := path
  subst absolute
  exact requireNames_of_directory wellFormed (by rwa [List.reverse_reverse])

end CallGraph.Tree
