import CallGraph.Proofs.Trees.Directories

/-!
# Trees that are made

The trees of a machine come about by changes: files are written, directories and links are made, and
what stands somewhere is taken away.  Every change leaves a tree well-formed, wherever the links in
it lead.  So what holds of well-formed trees holds of all trees that are made.
-/

namespace CallGraph.Tree

variable {tree after : Tree} {lenience : Lenience} {links : Nat} {place spot : Place}
  {entry : Entry} {name : String} {names : List String} {path : Path}

/-! ## The names on the way of a walk -/

/-- The names of the place that a stride comes to are proper, and those along which it goes on are
names. -/
def Stride.HasNames : Stride → Prop
  | .arrived spot => ∀ name ∈ spot, IsProper name
  | .turned spot names => (∀ name ∈ spot, IsProper name) ∧ ∀ name ∈ names, isName name = true
  | .stopped _ => True

theorem WellFormed.hasNames_stride (wellFormed : tree.WellFormed)
    (proper : ∀ name ∈ place, IsProper name) (named : ∀ name ∈ names, isName name = true) :
    (tree.stride lenience place names).HasNames := by
  have child {place : Place} {name : String} (proper : ∀ name ∈ place, IsProper name)
      (last : IsProper name) : ∀ other ∈ place ++ [name], IsProper other :=
    List.forall_mem_append.mpr ⟨proper, List.forall_mem_singleton.mpr last⟩
  fun_induction stride tree lenience place names with
  | case1 place => exact proper
  | case2 => trivial
  | case3 place names directory induction =>
      rw [List.forall_mem_cons] at named
      exact induction (fun name member => proper name (List.dropLast_subset place member)) named.2
  | case4 => trivial
  | case5 place name names directory notUp short target isLink =>
      rw [List.forall_mem_cons] at named
      have targets := wellFormed.linked _ target
        (wellFormed.mem_entries_iff.mpr ⟨by simp, isLink⟩)
      refine ⟨?_, List.forall_mem_append.mpr ⟨targets, named.2⟩⟩
      split
      · exact List.forall_mem_nil _
      · exact proper
  | case6 place name names directory notUp short other notLink stands induction =>
      rw [List.forall_mem_cons] at named
      exact induction (child proper ⟨notUp, named.1, by simpa using short⟩) named.2
  | case7 place name names directory notUp short absent =>
      rw [List.forall_mem_cons] at named
      exact child proper ⟨notUp, named.1, by simpa using short⟩
  | case8 => trivial

theorem WellFormed.proper_of_walkFrom (wellFormed : tree.WellFormed)
    (proper : ∀ name ∈ place, IsProper name) (named : ∀ name ∈ names, isName name = true)
    (arrives : tree.walkFrom lenience links place names = .ok spot) :
    ∀ name ∈ spot, IsProper name := by
  have has := @hasNames_stride tree lenience place names wellFormed proper named
  fun_induction walkFrom tree lenience links place names with
  | case1 links place names goal went =>
      cases arrives
      rwa [went] at has
  | case2 => cases arrives
  | case3 => cases arrives
  | case4 place names next others went links induction =>
      rw [went] at has
      exact induction has.1 has.2 arrives (wellFormed.hasNames_stride has.1 has.2)

/-- The names of a place that a path leads to are proper. -/
theorem WellFormed.proper_of_walk (wellFormed : tree.WellFormed)
    (arrives : tree.walk lenience path = .ok spot) : ∀ name ∈ spot, IsProper name := by
  obtain ⟨fine, arrives⟩ := walk_eq_ok_iff.mp arrives
  exact wellFormed.proper_of_walkFrom (List.forall_mem_nil _)
    (List.all_eq_true.mp (flaw?_eq_none_iff.mp fine).1) arrives

/-! ## Changes -/

theorem WellFormed.of_write {bytes : ByteArray} (wellFormed : tree.WellFormed)
    (written : write path bytes tree = .ok () after) : after.WellFormed := by
  obtain ⟨spot, arrives, noDirectory, rfl⟩ := write_eq_ok_iff.mp written
  have firm := firm_of_walk arrives
  have proper := wellFormed.proper_of_walk arrives
  obtain ⟨above, name, rfl⟩ :=
    (List.eq_nil_or_concat' spot).resolve_left (Vacant.of_walk arrives noDirectory).ne_nil
  exact wellFormed.replace (firm.above above (List.prefix_append _ _) (by simp))
    (proper name (by simp)) noDirectory (by simp)

/-- An entry may be made if it leads along names. -/
theorem WellFormed.of_makeEntry (wellFormed : tree.WellFormed)
    (linked : ∀ target, entry = .link target → ∀ name ∈ target.names, isName name = true)
    (made : makeEntry path entry tree = .ok () after) : after.WellFormed := by
  obtain ⟨above, name, held, notUp, absent, rfl⟩ := makeEntry_eq_ok_iff.mp made
  obtain ⟨directory, proper⟩ := proper_of_holder held notUp
  exact wellFormed.replace directory proper (by simp [absent]) linked

theorem sublist_intercalate {α : Type} {separator piece : List α} {pieces : List (List α)}
    (member : piece ∈ pieces) : piece.Sublist (separator.intercalate pieces) := by
  induction pieces with
  | nil => cases member
  | cons first others induction =>
      by_cases alone : others = []
      · subst alone
        rw [List.intercalate_singleton, List.mem_singleton.mp member]
      · rw [List.intercalate_cons_of_ne_nil alone]
        rcases List.mem_cons.mp member with rfl | later
        · rw [List.append_assoc]
          exact List.sublist_append_left _ _
        · exact (induction later).trans (List.sublist_append_right _ _)

/-- The names that are read of a text are names if the text may be one. -/
theorem isName_of_parse {text : String} (isText : isName text = true) :
    ∀ name ∈ (Path.parse text).names, isName name = true := by
  intro name member
  obtain ⟨letters, piece, rfl⟩ := List.mem_map.mp (List.mem_filter.mp member).1
  have part := @sublist_intercalate _ ['/'] _ _ piece
  rw [List.intercalate_splitOn] at part
  simp only [isName, Bool.not_eq_true', List.contains_eq_mem, decide_eq_false_iff_not,
    String.toList_ofList] at isText ⊢
  exact fun isZero => isText (part.subset isZero)

theorem WellFormed.of_makeLink {target : String} (wellFormed : tree.WellFormed)
    (made : makeLink path target tree = .ok () after) : after.WellFormed := by
  unfold makeLink at made
  split at made
  · cases made
  next isText =>
  split at made
  · cases made
  split at made
  · cases made
  refine wellFormed.of_makeEntry (fun leads same => ?_) made
  cases same
  exact isName_of_parse (by simpa using isText)

/-! ## Taking away -/

theorem get?_erase (tree : Tree) (outside : ¬ place <+: spot) :
    (tree.erase place).get? spot = tree.get? spot := by
  have kept : (!place.isPrefixOf spot) = true := by
    rwa [Bool.not_eq_true', ← Bool.not_eq_true, List.isPrefixOf_iff_prefix]
  rw [get?, get?, erase, lookup_filter _ fun other => !place.isPrefixOf other, kept, if_pos rfl]

theorem WellFormed.erase (wellFormed : tree.WellFormed) (place : Place) :
    (tree.erase place).WellFormed where
  distinct := wellFormed.distinct.sublist (List.filter_sublist.map _)
  placed other member := by
    obtain ⟨listed, kept⟩ := List.mem_filter.mp member
    obtain ⟨above, name, shape, proper, directory⟩ := wellFormed.placed other listed
    refine ⟨above, name, shape, proper, ?_⟩
    rw [get?_erase, directory]
    intro isPrefix
    have below := isPrefix.trans (List.prefix_append above [name])
    rw [← shape, ← List.isPrefixOf_iff_prefix] at below
    rw [below] at kept
    cases kept
  linked spot target member := wellFormed.linked spot target (List.mem_filter.mp member).1

theorem remove_run (path : Path) (tree : Tree) :
    remove path tree = match tree.holder path with
      | .error error => .error error tree
      | .ok none => .error TreeError.isDirectory tree
      | .ok (some (above, name)) =>
          if (tree.get? (above ++ [name])).isNone then .error TreeError.absent tree
          else .ok () (tree.erase (above ++ [name])) := by
  change (match tree.holder path with
    | .error error => (throw error : Action Unit)
    | .ok none => throw TreeError.isDirectory
    | .ok (some (above, name)) => do
        if (tree.get? (above ++ [name])).isNone then throw TreeError.absent
        set (tree.erase (above ++ [name]))) tree = _
  split
  · next held => rw [held]; rfl
  · next held => rw [held]; rfl
  · next above name held =>
      rw [held]
      dsimp only
      split <;> rfl

theorem WellFormed.of_remove (wellFormed : tree.WellFormed)
    (removed : remove path tree = .ok () after) : after.WellFormed := by
  rw [remove_run] at removed
  split at removed
  · cases removed
  · cases removed
  · split at removed
    · cases removed
    · cases removed
      exact wellFormed.erase _

/-! ## All changes -/

/-- A tree that changes have made from the empty one. -/
inductive Made : Tree → Prop where
  /-- Nothing was changed. -/
  | empty : Made {}
  /-- A file was written. -/
  | write {tree after : Tree} {path : Path} {bytes : ByteArray} :
      Made tree → Tree.write path bytes tree = .ok () after → Made after
  /-- A directory was made. -/
  | makeDirectory {tree after : Tree} {path : Path} :
      Made tree → Tree.makeDirectory path tree = .ok () after → Made after
  /-- A link was made. -/
  | makeLink {tree after : Tree} {path : Path} {target : String} :
      Made tree → Tree.makeLink path target tree = .ok () after → Made after
  /-- Something was taken away. -/
  | remove {tree after : Tree} {path : Path} :
      Made tree → Tree.remove path tree = .ok () after → Made after

/-- Every tree that is made is well-formed. -/
theorem Made.wellFormed (made : Made tree) : tree.WellFormed := by
  induction made with
  | empty => exact .empty
  | write _ written wellFormed => exact wellFormed.of_write written
  | makeDirectory _ made wellFormed =>
      refine wellFormed.of_makeEntry (fun target same => ?_) made
      cases same
  | makeLink _ made wellFormed => exact wellFormed.of_makeLink made
  | remove _ removed wellFormed => exact wellFormed.of_remove removed

/-- A directory may be made with those above it. -/
theorem Made.requireNames (made : Made tree)
    (required : Tree.requireNames names tree = .ok () after) : Made after := by
  induction names generalizing after with
  | nil =>
      cases required
      exact made
  | cons name above induction =>
      rcases requireNames_cases required with required | ⟨-, middle, first, second⟩ | ⟨-, rfl⟩
      · exact made.makeDirectory required
      · rcases requireDirectory_cases second with required | ⟨-, rfl⟩
        · exact (induction first).makeDirectory required
        · exact induction first
      · exact made

end CallGraph.Tree
