import CallGraph.Proofs.Resolution.Sweep

/-!
# Edges and their inverses after resolution

A table is *raw* when no list of edges holds a private key, as after reading dumps.  Resolving a raw
table leaves only edges to records, answers every backward edge, and answers the forward edges of
private symbols and of symbols with several origins.  A forward edge of a public symbol with a
single origin may stay unanswered.
-/

namespace CallGraph

namespace Table

/-! ## Restored origins -/

theorem get?_foldl_addOrigins (entries : List (Key × List Origin))
    (distinct : (entries.map Prod.fst).Nodup) (table : Table) (key : Key) :
    (entries.foldl (fun table entry => table.modify entry.1 (·.addOrigins entry.2)) table).get?
        key =
      (table.get? key).map (·.addOrigins ((entries.lookup key).getD [])) := by
  induction entries generalizing table with
  | nil =>
      rw [List.foldl_nil]
      cases table.get? key <;> simp
  | cons entry entries induction =>
      obtain ⟨name, origins⟩ := entry
      rw [List.map_cons, List.nodup_cons] at distinct
      rw [List.foldl_cons, induction distinct.2, get?_modify, List.lookup_cons]
      by_cases same : key = name
      · subst same
        have unlisted : entries.lookup key = none := by
          rw [List.lookup_eq_none_iff]
          intro other member
          simp only [bne_iff_ne, ne_eq]
          rintro rfl
          exact distinct.1 (List.mem_map.mpr ⟨other, member, rfl⟩)
        rw [unlisted]
        cases table.get? key <;> simp
      · rw [if_neg same, show (key == name) = false by simpa using same]

/-- Restoring gives every symbol the origins that were kept for it. -/
theorem get?_restoreOrigins (table : Table) (key : Key) :
    table.restoreOrigins.get? key =
      (table.get? key).map (·.addOrigins ((table.detached.get? key).getD [])) :=
  get?_foldl_addOrigins table.detached.entries table.detached.distinct table key

theorem contains_restoreOrigins (table : Table) (key : Key) :
    table.restoreOrigins.contains key = table.contains key := by
  rw [Bool.eq_iff_iff, contains_iff, contains_iff, get?_restoreOrigins]
  cases table.get? key <;> simp

theorem edgesOf_restoreOrigins (table : Table) (key : Key) (field : EdgeField) :
    table.restoreOrigins.edgesOf key field = table.edgesOf key field := by
  unfold edgesOf
  rw [get?_restoreOrigins]
  cases table.get? key <;> simp

/-! ## Resolution as a whole -/

theorem edgesDistinct_linkFields (table : Table) : table.linkFields.EdgesDistinct :=
  table.nodup_linkFields

theorem sweptTo_resolve (table : Table) : SweptTo table.linkFields table.resolve :=
  sweptTo_sweep table.edgesDistinct_linkFields

/-- What a resolved table knows of a symbol, apart from its edges, it knew when the origins of
dropped symbols were restored. -/
theorem body_of_resolve {table : Table} {key : Key} {record : Record}
    (found : table.resolve.get? key = some record) :
    ∃ old, table.restoreOrigins.get? key = some old ∧ record.body = old.body := by
  obtain ⟨linked, present, sameBody⟩ := table.sweptTo_resolve.body key record found
  obtain ⟨old, oldFound, oldBody⟩ := body_of_linkFields present
  exact ⟨old, oldFound, sameBody.trans oldBody⟩

theorem nodup_resolve (table : Table) (key : Key) (field : EdgeField) :
    (table.resolve.edgesOf key field).Nodup := by
  by_cases stays : table.resolve.contains key = true
  · rw [table.sweptTo_resolve.edges key field stays]
    exact (table.nodup_linkFields key field).filter _
  · rw [edgesOf_of_absent stays]
    exact List.nodup_nil

/-- No list of edges holds a private key. -/
def Raw (table : Table) : Prop :=
  ∀ key field, ∀ token ∈ table.edgesOf key field, Key.isPrivate token = false

/-- In a raw table a backward edge that stands is answered by a target. -/
theorem Raw.mem_targets_of_backward {table : Table} (raw : table.Raw) {key token : Key}
    {field : EdgeField} (forward : field.isForward = true)
    (member : token ∈ table.linkFields.edgesOf key field.inverse) :
    key ∈ table.restoreOrigins.targets token field := by
  rw [mem_linkFields_backward table key token forward] at member
  obtain ⟨listed | backed, isPrivate | answered⟩ := member
  · rw [edgesOf_restoreOrigins] at listed
    simp [raw key field.inverse token listed] at isPrivate
  · exact answered
  · exact backed.2
  · exact answered

/-- Before the sweep, every edge leads to a record. -/
theorem Raw.contains_of_linked {table : Table} (raw : table.Raw) {key target : Key}
    {field : EdgeField} (member : target ∈ table.linkFields.edgesOf key field) :
    table.linkFields.contains target = true := by
  rw [contains_linkFields]
  cases direction : field.isForward with
  | true =>
      rw [edgesOf_linkFields_forward table key direction] at member
      exact contains_of_mem_targets member
  | false =>
      have forward : field.inverse.isForward = true := by
        rw [EdgeField.isForward_inverse, direction]
        rfl
      rw [← EdgeField.inverse_inverse field] at member
      have answered := raw.mem_targets_of_backward forward member
      obtain ⟨record, found, -⟩ := mem_targets_iff.mp answered
      exact (table.restoreOrigins.contains_iff target).mpr ⟨record, found⟩

/-- The inverse of an edge that both passes kept survives with it. -/
theorem inverse_mem_resolve {table : Table} {key target : Key} {field other : EdgeField}
    (edge : target ∈ table.resolve.edgesOf key field)
    (present : table.linkFields.contains target = true)
    (inverse : key ∈ table.linkFields.edgesOf target other) :
    key ∈ table.resolve.edgesOf target other := by
  have swept := table.sweptTo_resolve
  obtain ⟨stays, -, targetStays⟩ := swept.mem_edgesOf_iff.mp edge
  exact swept.mem_edgesOf_iff.mpr ⟨targetStays present, inverse, fun _ => stays⟩

/-- A forward edge that stays is one of the targets. -/
theorem mem_targets_of_resolve {table : Table} {key target : Key} {field : EdgeField}
    (forward : field.isForward = true) (edge : target ∈ table.resolve.edgesOf key field) :
    target ∈ table.restoreOrigins.targets key field := by
  obtain ⟨-, linked, -⟩ := table.sweptTo_resolve.mem_edgesOf_iff.mp edge
  rwa [edgesOf_linkFields_forward table key forward] at linked

/-- An edge and its inverse hold each other up in the sweep. -/
theorem mem_resolve_of_mutual {table : Table} {key target : Key} {field other : EdgeField}
    (edge : target ∈ table.linkFields.edgesOf key field)
    (inverse : key ∈ table.linkFields.edgesOf target other) :
    target ∈ table.resolve.edgesOf key field ∧ key ∈ table.resolve.edgesOf target other := by
  have supported : table.linkFields.Supported fun own => own = key ∨ own = target := by
    constructor
    · rintro own (rfl | rfl)
      · exact contains_of_mem_edgesOf edge
      · exact contains_of_mem_edgesOf inverse
    · rintro own (rfl | rfl)
      · exact ⟨field, target, edge, .inl (.inr rfl)⟩
      · exact ⟨other, key, inverse, .inl (.inl rfl)⟩
  have keyStays : table.resolve.contains key = true :=
    supported.contains_sweep table.edgesDistinct_linkFields (.inl rfl)
  have targetStays : table.resolve.contains target = true :=
    supported.contains_sweep table.edgesDistinct_linkFields (.inr rfl)
  have swept := table.sweptTo_resolve
  exact ⟨swept.mem_edgesOf_iff.mpr ⟨keyStays, edge, fun _ => targetStays⟩,
    swept.mem_edgesOf_iff.mpr ⟨targetStays, inverse, fun _ => keyStays⟩⟩

/-- A target of a private key stays, and so does one that names its key back. -/
theorem mem_resolve_of_answered {table : Table} {key target : Key} {field : EdgeField}
    (forward : field.isForward = true) (linked : target ∈ table.restoreOrigins.targets key field)
    (answered : Key.isPrivate key = true ∨ key ∈ table.edgesOf target field.inverse) :
    target ∈ table.resolve.edgesOf key field ∧
      key ∈ table.resolve.edgesOf target field.inverse := by
  apply mem_resolve_of_mutual
  · rwa [edgesOf_linkFields_forward table key forward]
  · rw [mem_linkFields_backward table target key forward, edgesOf_restoreOrigins]
    refine ⟨?_, .inr linked⟩
    exact answered.symm.imp_right fun marked => ⟨marked, linked⟩

/-- Every edge of a resolved raw table leads to a record. -/
theorem Raw.contains_of_resolve {table : Table} (raw : table.Raw) {key target : Key}
    {field : EdgeField} (edge : target ∈ table.resolve.edgesOf key field) :
    table.resolve.contains target = true := by
  obtain ⟨-, linked, targetStays⟩ := table.sweptTo_resolve.mem_edgesOf_iff.mp edge
  exact targetStays (raw.contains_of_linked linked)

/-- Every backward edge of a resolved raw table is answered. -/
theorem Raw.backward_answered {table : Table} (raw : table.Raw) {key target : Key}
    {field : EdgeField} (backward : field.isForward = false)
    (edge : target ∈ table.resolve.edgesOf key field) :
    key ∈ table.resolve.edgesOf target field.inverse := by
  have forward : field.inverse.isForward = true := by
    rw [EdgeField.isForward_inverse, backward]
    rfl
  obtain ⟨-, linked, -⟩ := table.sweptTo_resolve.mem_edgesOf_iff.mp edge
  apply inverse_mem_resolve edge (raw.contains_of_linked linked)
  rw [edgesOf_linkFields_forward table target forward]
  apply raw.mem_targets_of_backward forward
  rwa [EdgeField.inverse_inverse]

/-- A forward edge of a private symbol, or of a symbol with several origins, is answered. -/
theorem forward_answered {table : Table} {key target : Key} {field : EdgeField}
    (forward : field.isForward = true) {record : Record}
    (found : table.resolve.get? key = some record)
    (exempt : Key.isPrivate key = true ∨ 1 < record.origins.length)
    (edge : target ∈ table.resolve.edgesOf key field) :
    key ∈ table.resolve.edgesOf target field.inverse := by
  have linked := mem_targets_of_resolve forward edge
  obtain ⟨stored, storedFound, -, -, answers⟩ := mem_targets_iff.mp linked
  refine (mem_resolve_of_answered forward linked (exempt.imp_right fun several => ?_)).2
  rw [← edgesOf_restoreOrigins]
  apply answers
  obtain ⟨old, oldFound, sameBody⟩ := body_of_resolve found
  rw [storedFound] at oldFound
  cases oldFound
  rwa [← Record.origins_eq_of_body sameBody]

/-- A record with forward edges has an origin. -/
theorem origins_ne_nil_of_forward {table : Table} {key target : Key} {field : EdgeField}
    (forward : field.isForward = true) {record : Record}
    (found : table.resolve.get? key = some record)
    (edge : target ∈ table.resolve.edgesOf key field) : record.origins ≠ [] := by
  obtain ⟨stored, storedFound, ⟨-, -, origin, declared, -⟩, -⟩ :=
    mem_targets_iff.mp (mem_targets_of_resolve forward edge)
  obtain ⟨old, oldFound, sameBody⟩ := body_of_resolve found
  rw [storedFound] at oldFound
  cases oldFound
  rw [Record.origins_eq_of_body sameBody]
  exact List.ne_nil_of_mem declared

end Table

end CallGraph
