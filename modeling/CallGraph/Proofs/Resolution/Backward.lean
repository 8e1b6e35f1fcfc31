import CallGraph.Proofs.Resolution.Forward

/-!
# Pruning the backward fields

Pruning reads forward fields and changes backward ones, so the order of the fields does not matter
here either.  `mem_linkFields_backward` and `edgesOf_linkFields_forward` put the two passes
together: both lists of every edge after `linkFields`, in terms of the table to which the origins
of dropped symbols were restored.
-/

namespace CallGraph

namespace EdgeField

theorem mem_backward_iff (field : EdgeField) : field ∈ backward ↔ field.isForward = false := by
  cases field <;> decide

end EdgeField

namespace Table

theorem keepsBackward_iff (table : Table) (key : Key) (field : EdgeField) (token : String) :
    table.keepsBackward key field token = true ↔
      Key.isPrivate token = true ∨ key ∈ table.edgesOf token field.inverse := by
  rw [keepsBackward, Bool.or_eq_true, mem_edgesOf_iff]
  cases table.get? token <;> simp

/-- What pruning leaves of a backward field. -/
def kept (table : Table) (key : Key) (field : EdgeField) : List Key :=
  distinctMembers ((table.edgesOf key field).filter (table.keepsBackward key field))

theorem mem_kept_iff {table : Table} {key token : Key} {field : EdgeField} :
    token ∈ table.kept key field ↔
      token ∈ table.edgesOf key field ∧
        (Key.isPrivate token = true ∨ key ∈ table.edgesOf token field.inverse) := by
  rw [kept, mem_distinctMembers, List.mem_filter, keepsBackward_iff]

theorem get?_pruneBackward (table : Table) (key : Key) (field : EdgeField) (own : Key) :
    (table.pruneBackward key field).get? own =
      (table.get? own).map fun record =>
        if own = key then record.withEdges field (table.kept key field) else record := by
  unfold pruneBackward
  cases present : table.get? key with
  | none =>
      by_cases same : own = key
      · simp [same, present]
      · simp [same]
  | some record =>
      by_cases same : own = key
      · subst same
        simp [present, kept, edgesOf_eq present, Record.setEdges]
      · simp [same]

theorem body_pruneBackward (table : Table) (key : Key) (field : EdgeField) (own : Key) :
    ((table.pruneBackward key field).get? own).map Record.body =
      (table.get? own).map Record.body := by
  rw [get?_pruneBackward, Option.map_map]
  congr 1
  funext record
  rw [Function.comp_apply]
  split
  · exact Record.body_withEdges record field _
  · rfl

theorem edgesOf_pruneBackward (table : Table) (key : Key) (field : EdgeField) (own : Key)
    (other : EdgeField) :
    (table.pruneBackward key field).edgesOf own other =
      if (own, other) = (key, field) then table.kept key field else table.edgesOf own other := by
  unfold edgesOf
  rw [get?_pruneBackward]
  cases found : table.get? own with
  | none =>
      by_cases same : (own, other) = (key, field)
      · cases same
        simp [kept, edgesOf, found, distinctMembers, union]
      · rw [if_neg same]
        rfl
  | some record =>
      by_cases sameKey : own = key
      · subst sameKey
        by_cases sameField : other = field
        · simp [sameField]
        · simp [sameField, Record.edges_withEdges]
      · simp [sameKey]

/-- The table `now` is `start` with the backward fields in `pruned` pruned as they stand in
`start`. -/
structure PrunedBy (start : Table) (pruned : List (Key × EdgeField)) (now : Table) : Prop where
  /-- What is known of each symbol itself stays. -/
  body : ∀ key, (now.get? key).map Record.body = (start.get? key).map Record.body
  /-- Only the pruned fields change. -/
  edges : ∀ key field,
    now.edgesOf key field =
      if (key, field) ∈ pruned then start.kept key field else start.edgesOf key field

theorem PrunedBy.refl (table : Table) : PrunedBy table [] table where
  body _ := rfl
  edges _ _ := by simp

/-- One more field. -/
theorem PrunedBy.step {start now : Table} {pruned : List (Key × EdgeField)}
    (earlier : PrunedBy start pruned now)
    (backward : ∀ entry ∈ pruned, entry.2.isForward = false) {key : Key} {field : EdgeField}
    (fieldBackward : field.isForward = false) (open_field : (key, field) ∉ pruned) :
    PrunedBy start (pruned ++ [(key, field)]) (now.pruneBackward key field) where
  body own := by rw [body_pruneBackward, earlier.body]
  edges own other := by
    have forwardKept : ∀ token, now.edgesOf token field.inverse =
        start.edgesOf token field.inverse := by
      intro token
      rw [earlier.edges, if_neg]
      intro member
      have forward := backward _ member
      simp [EdgeField.isForward_inverse, fieldBackward] at forward
    have sameKept : now.kept key field = start.kept key field := by
      have tests : now.keepsBackward key field = start.keepsBackward key field := by
        funext token
        rw [Bool.eq_iff_iff, keepsBackward_iff, keepsBackward_iff, forwardKept]
      rw [kept, kept, tests, earlier.edges key field, if_neg open_field]
    rw [edgesOf_pruneBackward, sameKept, earlier.edges own other]
    by_cases same : (own, other) = (key, field)
    · cases same
      simp
    · simp only [same, if_false, List.mem_append, List.mem_singleton, or_false]

theorem PrunedBy.foldl {start now : Table} {pruned fields : List (Key × EdgeField)}
    (earlier : PrunedBy start pruned now)
    (backward : ∀ entry ∈ pruned ++ fields, entry.2.isForward = false)
    (distinct : (pruned ++ fields).Nodup) :
    PrunedBy start (pruned ++ fields)
      (fields.foldl (fun table entry => table.pruneBackward entry.1 entry.2) now) := by
  induction fields generalizing pruned now with
  | nil => simpa using earlier
  | cons entry fields induction =>
      have open_field : (entry.1, entry.2) ∉ pruned := fun member =>
        (List.nodup_append.mp distinct).2.2 _ member _ List.mem_cons_self rfl
      have advanced := earlier.step
        (fun old member => backward old (List.mem_append_left _ member))
        (backward entry (List.mem_append_right _ List.mem_cons_self)) open_field
      have regrouped : pruned ++ entry :: fields = (pruned ++ [entry]) ++ fields := by simp
      rw [regrouped] at distinct backward ⊢
      exact induction advanced backward distinct

/-- The pass over the backward fields leaves of each what stands in the light of the table before
the pass. -/
theorem prunedBy_fieldsOf (table : Table) :
    PrunedBy table (table.fieldsOf EdgeField.backward) table.pruneBackwardFields := by
  apply (PrunedBy.refl table).foldl
  · rintro ⟨key, field⟩ member
    exact (EdgeField.mem_backward_iff field).mp (mem_fieldsOf_iff.mp member).2
  · rw [List.nil_append]
    exact table.nodup_fieldsOf (by decide)

theorem edgesOf_pruneBackwardFields_forward (table : Table) (key : Key) {field : EdgeField}
    (forward : field.isForward = true) :
    table.pruneBackwardFields.edgesOf key field = table.edgesOf key field := by
  rw [(prunedBy_fieldsOf table).edges, if_neg]
  intro member
  have backward := (EdgeField.mem_backward_iff field).mp (mem_fieldsOf_iff.mp member).2
  simp [forward] at backward

theorem edgesOf_pruneBackwardFields_backward (table : Table) (key : Key) {field : EdgeField}
    (backward : field.isForward = false) :
    table.pruneBackwardFields.edgesOf key field = table.kept key field := by
  rw [(prunedBy_fieldsOf table).edges]
  split
  · rfl
  · next unlisted =>
      have absent : ¬ table.contains key = true := by
        simpa [mem_fieldsOf_iff, EdgeField.mem_backward_iff, backward] using unlisted
      rw [kept, edgesOf_of_absent absent]
      rfl

/-! ## Both passes -/

theorem body_linkFields (table : Table) (key : Key) :
    (table.linkFields.get? key).map Record.body =
      (table.restoreOrigins.get? key).map Record.body := by
  rw [linkFields, (prunedBy_fieldsOf _).body, (linkedBy_fieldsOf _).body]

theorem body_of_linkFields {table : Table} {key : Key} {record : Record}
    (found : table.linkFields.get? key = some record) :
    ∃ old, table.restoreOrigins.get? key = some old ∧ record.body = old.body := by
  have restored := table.body_linkFields key
  rw [found, Option.map_some] at restored
  obtain ⟨old, oldFound, oldBody⟩ := Option.map_eq_some_iff.mp restored.symm
  exact ⟨old, oldFound, oldBody.symm⟩

theorem contains_linkFields (table : Table) (key : Key) :
    table.linkFields.contains key = table.restoreOrigins.contains key :=
  contains_eq_of_body table.body_linkFields key

/-- After both passes a forward field holds its targets. -/
theorem edgesOf_linkFields_forward (table : Table) (key : Key) {field : EdgeField}
    (forward : field.isForward = true) :
    table.linkFields.edgesOf key field = table.restoreOrigins.targets key field := by
  rw [linkFields, edgesOf_pruneBackwardFields_forward _ _ forward,
    edgesOf_resolveForwardFields_forward _ _ forward]

/-- After both passes a backward field holds the private keys that lead to it, and of the public
ones it named those that do. -/
theorem mem_linkFields_backward (table : Table) (key token : Key) {field : EdgeField}
    (forward : field.isForward = true) :
    token ∈ table.linkFields.edgesOf key field.inverse ↔
      (token ∈ table.restoreOrigins.edgesOf key field.inverse ∨
          Key.isPrivate token = true ∧ key ∈ table.restoreOrigins.targets token field) ∧
        (Key.isPrivate token = true ∨ key ∈ table.restoreOrigins.targets token field) := by
  have backward : field.inverse.isForward = false := by
    rw [EdgeField.isForward_inverse, forward]
    rfl
  rw [linkFields, edgesOf_pruneBackwardFields_backward _ _ backward, mem_kept_iff,
    mem_resolveForwardFields_backward _ _ _ forward, EdgeField.inverse_inverse,
    edgesOf_resolveForwardFields_forward _ _ forward]

theorem nodup_linkFields (table : Table) (key : Key) (field : EdgeField) :
    (table.linkFields.edgesOf key field).Nodup := by
  cases direction : field.isForward with
  | true =>
      rw [edgesOf_linkFields_forward _ _ direction]
      exact nodup_targets _ key field
  | false =>
      rw [linkFields, edgesOf_pruneBackwardFields_backward _ _ direction]
      exact nodup_distinctMembers _

end Table

end CallGraph
