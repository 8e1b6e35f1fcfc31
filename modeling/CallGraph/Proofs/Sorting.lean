import CallGraph.Proofs.Lookup
import CallGraph.Table.Summary
import Mathlib.Data.List.Nodup

/-!
# Sorted lists

Everything that is written comes in an order of its own, so that it does not show in which order
its parts were found.  Two lists with the same members are sorted to the same list as soon as the
order tells their members apart; keys and fields are told apart by their names.
-/

namespace CallGraph

universe u v

/-- A test by which a list can be sorted: it puts any two values in an order, and goes on from one
pair to the next. -/
structure Orders {α : Type u} (le : α → α → Bool) : Prop where
  /-- The order goes on from one pair to the next. -/
  trans : ∀ first second third, le first second = true → le second third = true →
    le first third = true
  /-- Any two values are in order one way or the other. -/
  total : ∀ left right, (le left right || le right left) = true

namespace Orders

variable {α : Type u} {β : Type v} {le : α → α → Bool} {left right : List α}

/-- Values in the order of one of their parts. -/
theorem comap (orders : Orders le) (part : β → α) :
    Orders fun left right => le (part left) (part right) :=
  ⟨fun _ _ _ => orders.trans _ _ _, fun _ _ => orders.total _ _⟩

theorem pairwise_mergeSort (orders : Orders le) (values : List α) :
    (values.mergeSort le).Pairwise fun left right => le left right = true :=
  List.pairwise_mergeSort orders.trans orders.total values

/-- The same members are sorted to the same list if the order tells them apart. -/
theorem mergeSort_eq (orders : Orders le)
    (apart : ∀ first ∈ left, ∀ second ∈ left, le first second = true → le second first = true →
      first = second)
    (perm : left.Perm right) : left.mergeSort le = right.mergeSort le := by
  refine List.Perm.eq_of_pairwise ?_ (orders.pairwise_mergeSort left)
    (orders.pairwise_mergeSort right) (((left.mergeSort_perm le).trans perm).trans
      (right.mergeSort_perm le).symm)
  intro first second firstMember secondMember
  exact apart first (List.mem_mergeSort.mp firstMember) second
    (perm.mem_iff.mpr (List.mem_mergeSort.mp secondMember))

end Orders

/-! ## The orders in use -/

theorem orders_texts : Orders fun left right : String => decide (left ≤ right) := by
  constructor
  · intro first second third
    simpa using String.le_trans
  · intro left right
    simpa using String.le_total left right

theorem orders_first (α : Type u) :
    Orders fun left right : String × α => decide (left.1 ≤ right.1) :=
  orders_texts.comap Prod.fst

theorem pairLe_iff {left right : Key × Key} :
    pairLe left right = true ↔ left.1 < right.1 ∨ left.1 = right.1 ∧ left.2 ≤ right.2 := by
  simp [pairLe]

theorem orders_pairLe : Orders pairLe := by
  constructor
  · intro first second third
    simp only [pairLe_iff]
    rintro (less | ⟨same, le⟩) (lessNext | ⟨sameNext, leNext⟩)
    · exact .inl (String.lt_trans less lessNext)
    · exact .inl (sameNext ▸ less)
    · exact .inl (same ▸ lessNext)
    · exact .inr ⟨same.trans sameNext, String.le_trans le leNext⟩
  · intro left right
    simp only [Bool.or_eq_true, pairLe_iff]
    rcases Std.lt_trichotomy left.1 right.1 with less | same | greater
    · exact .inl (.inl less)
    · exact (String.le_total left.2 right.2).imp (fun le => .inr ⟨same, le⟩)
        fun ge => .inr ⟨same.symm, ge⟩
    · exact .inr (.inl greater)

theorem eq_of_pairLe {left right : Key × Key} (le : pairLe left right = true)
    (ge : pairLe right left = true) : left = right := by
  rw [pairLe_iff] at le ge
  rcases le with less | ⟨same, le⟩
  · rcases ge with greater | ⟨same, -⟩
    · exact absurd less (String.lt_asymm greater)
    · exact absurd (same ▸ less) (String.lt_irrefl _)
  · rcases ge with greater | ⟨-, ge⟩
    · exact absurd (same ▸ greater) (String.lt_irrefl _)
    · exact Prod.ext same (String.le_antisymm le ge)

theorem textsLe_cons_iff {left right : String} {lefts rights : List String} :
    textsLe (left :: lefts) (right :: rights) = true ↔
      left < right ∨ left = right ∧ textsLe lefts rights = true := by
  simp [textsLe]

theorem textsLe_trans {first second third : List String} (le : textsLe first second = true)
    (leNext : textsLe second third = true) : textsLe first third = true := by
  induction first generalizing second third with
  | nil => rfl
  | cons text first induction =>
      cases second with
      | nil => cases le
      | cons other second =>
          cases third with
          | nil => cases leNext
          | cons last third =>
              rw [textsLe_cons_iff] at le leNext ⊢
              rcases le with less | ⟨rfl, le⟩
              · rcases leNext with lessNext | ⟨rfl, -⟩
                · exact .inl (String.lt_trans less lessNext)
                · exact .inl less
              · exact leNext.imp_right fun ⟨same, leNext⟩ => ⟨same, induction le leNext⟩

theorem textsLe_total (left right : List String) :
    textsLe left right = true ∨ textsLe right left = true := by
  induction left generalizing right with
  | nil => exact .inl rfl
  | cons text left induction =>
      cases right with
      | nil => exact .inr rfl
      | cons other right =>
          simp only [textsLe_cons_iff]
          rcases Std.lt_trichotomy text other with less | rfl | greater
          · exact .inl (.inl less)
          · exact (induction right).imp (fun le => .inr ⟨rfl, le⟩) fun ge => .inr ⟨rfl, ge⟩
          · exact .inr (.inl greater)

theorem eq_of_textsLe {left right : List String} (le : textsLe left right = true)
    (ge : textsLe right left = true) : left = right := by
  induction left generalizing right with
  | nil =>
      cases right with
      | nil => rfl
      | cons other right => cases ge
  | cons text left induction =>
      cases right with
      | nil => cases le
      | cons other right =>
          rw [textsLe_cons_iff] at le ge
          rcases le with less | ⟨rfl, le⟩
          · rcases ge with greater | ⟨rfl, -⟩
            · exact absurd less (String.lt_asymm greater)
            · exact absurd less (String.lt_irrefl _)
          · rcases ge with greater | ⟨-, ge⟩
            · exact absurd greater (String.lt_irrefl _)
            · rw [induction le ge]

theorem orders_textsLe : Orders textsLe :=
  ⟨fun _ _ _ => textsLe_trans, fun left right => by
    rw [Bool.or_eq_true]
    exact textsLe_total left right⟩

/-! ## Named values -/

section Named

variable {α : Type u} {β : Type v} {left right : List (String × α)}

theorem nodup_mergeSort_first (distinct : (left.map Prod.fst).Nodup) :
    ((left.mergeSort fun first second => decide (first.1 ≤ second.1)).map Prod.fst).Nodup :=
  ((left.mergeSort_perm _).map Prod.fst).nodup_iff.mpr distinct

/-- The order does not show when values are looked up by their names. -/
theorem lookup_mergeSort_first (distinct : (left.map Prod.fst).Nodup) (name : String) :
    (left.mergeSort fun first second => decide (first.1 ≤ second.1)).lookup name =
      left.lookup name := by
  ext value
  change (KeyMap.mk _ (nodup_mergeSort_first distinct)).get? name = some value ↔
    (KeyMap.mk left distinct).get? name = some value
  rw [KeyMap.get?_eq_some_iff, KeyMap.get?_eq_some_iff]
  exact List.mem_mergeSort

/-- Sorting by name does not look at what stands under the names. -/
theorem mergeSort_map_second (change : α → β) (named : List (String × α)) :
    ((named.map fun entry => (entry.1, change entry.2)).mergeSort fun first second =>
        decide (first.1 ≤ second.1)) =
      (named.mergeSort fun first second => decide (first.1 ≤ second.1)).map fun entry =>
        (entry.1, change entry.2) :=
  Eq.symm <| @List.map_mergeSort _ _ _ _ (fun entry : String × α => (entry.1, change entry.2)) _
    fun _ _ _ _ => rfl

/-- Values with names of their own are sorted by their names to the same list. -/
theorem mergeSort_first_eq (distinct : (left.map Prod.fst).Nodup) (perm : left.Perm right) :
    (left.mergeSort fun first second => decide (first.1 ≤ second.1)) =
      right.mergeSort fun first second => decide (first.1 ≤ second.1) := by
  refine (orders_first α).mergeSort_eq ?_ perm
  intro first firstMember second secondMember le ge
  exact List.inj_on_of_nodup_map distinct firstMember secondMember
    (String.le_antisymm (of_decide_eq_true le) (of_decide_eq_true ge))

/-- In increasing order no name comes twice, so every name is less than the next. -/
theorem pairwise_lt_mergeSort_first (distinct : (left.map Prod.fst).Nodup) :
    ((left.mergeSort fun first second => decide (first.1 ≤ second.1)).map Prod.fst).Pairwise
      (· < ·) := by
  have apart := nodup_mergeSort_first distinct
  rw [List.pairwise_map]
  refine ((orders_first α).pairwise_mergeSort left).imp₂ ?_ (List.pairwise_map.mp apart)
  intro first second le different
  exact Std.lt_of_le_of_ne (of_decide_eq_true le) different

end Named

end CallGraph
