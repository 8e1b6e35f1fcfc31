import CallGraph.Finding
import CallGraph.Proofs.Violation

/-!
# What a check of a table finds

A table is coherent when every record has a name, a kind and an edge, no list of edges repeats a
member or leads to an unknown key, and the backward relations are the converses of the forward ones.
The check walks the lists of one record after the other and looks only at the inverse of each edge.
It has nothing to say exactly of the coherent tables, and of any other it has one finding for each
record, list or edge that is at fault.
-/

namespace CallGraph

namespace Table

/-! ## Coherent tables -/

/-- What is expected of a table, said of its relations as a whole. -/
structure Coherent (table : Table) : Prop where
  /-- Every record has a name. -/
  named : ∀ key record, table.get? key = some record → record.name ≠ ""
  /-- Every record has a kind. -/
  typed : ∀ key record, table.get? key = some record → ∃ kind, record.kind = some kind
  /-- Every record has an edge. -/
  linked : ∀ key record, table.get? key = some record → ∃ field target, target ∈ record.edges field
  /-- No list of edges repeats a member. -/
  distinct : ∀ key record field, table.get? key = some record → (record.edges field).Nodup
  /-- Every edge leads to a key of the table. -/
  closed : ∀ key record field, table.get? key = some record →
    ∀ target ∈ record.edges field, target ∈ table.keys
  /-- One symbol mentions another exactly when the other is mentioned by it. -/
  mentions : ∀ user ∈ table.keys, ∀ used ∈ table.keys,
    used ∈ table.edgesOf user .references ↔ user ∈ table.edgesOf used .referring
  /-- One function calls another exactly when the other is called by it. -/
  calls : ∀ caller ∈ table.keys, ∀ callee ∈ table.keys,
    callee ∈ table.edgesOf caller .calls ↔ caller ∈ table.edgesOf callee .calledBy

variable {table : Table} {key target : Key} {record : Record} {field : EdgeField}

theorem isSound_iff_forall_not_applies :
    table.isSound = true ↔
      ∀ violation record, table.get? (Violation.key violation) = some record →
        ¬ violation.Applies table record := by
  rw [isSound, List.isEmpty_iff, List.eq_nil_iff_forall_not_mem]
  refine forall_congr' fun violation => ?_
  rw [mem_violations_iff]
  exact ⟨fun none_ record found applies => none_ ⟨record, found, applies⟩,
    fun clear ⟨record, found, applies⟩ => clear record found applies⟩

/-- In a coherent table every edge is answered, whichever of the four lists it stands in. -/
theorem Coherent.answered (coherent : table.Coherent) (known : key ∈ table.keys)
    (present : target ∈ table.keys) (edge : target ∈ table.edgesOf key field) :
    key ∈ table.edgesOf target field.inverse := by
  cases field with
  | references => exact (coherent.mentions key known target present).mp edge
  | referring => exact (coherent.mentions target present key known).mpr edge
  | calls => exact (coherent.calls key known target present).mp edge
  | calledBy => exact (coherent.calls target present key known).mpr edge

theorem Coherent.not_applies (coherent : table.Coherent) {violation : Violation}
    (found : table.get? violation.key = some record) : ¬ violation.Applies table record := by
  have known : violation.key ∈ table.keys :=
    (table.mem_keys_iff _).mpr ((table.contains_iff _).mpr ⟨record, found⟩)
  intro applies
  cases violation with
  | unnamed key => exact coherent.named key record found applies
  | untyped key =>
      obtain ⟨kind, given⟩ := coherent.typed key record found
      rw [show record.kind = none from applies] at given
      cases given
  | spurious key =>
      have linked := (Record.hasEdges_iff record).mpr (coherent.linked key record found)
      rw [show record.hasEdges = false from applies] at linked
      cases linked
  | repeats key field => exact applies (coherent.distinct key record field found)
  | dangling key field target =>
      obtain ⟨edge, absent⟩ := applies
      have present := (table.mem_keys_iff target).mp (coherent.closed key record field found _ edge)
      rw [absent] at present
      cases present
  | unanswered key field target =>
      obtain ⟨edge, present, silent⟩ := applies
      exact silent (coherent.answered known ((table.mem_keys_iff target).mpr present)
        (mem_edgesOf_iff.mpr ⟨record, found, edge⟩))

/-- The relations of a sound table are converses of each other. -/
theorem mem_inverse_iff_of_isSound (sound : table.isSound = true) :
    target ∈ table.edgesOf key field ↔ key ∈ table.edgesOf target field.inverse := by
  have answers (field : EdgeField) (key target : Key) (edge : target ∈ table.edgesOf key field) :
      key ∈ table.edgesOf target field.inverse := by
    obtain ⟨record, found, edge⟩ := mem_edgesOf_iff.mp edge
    exact mem_edgesOf_iff.mpr (answered_of_isSound sound found edge)
  constructor
  · exact answers field key target
  · intro edge
    have back := answers field.inverse target key edge
    rwa [EdgeField.inverse_inverse] at back

theorem coherent_of_isSound (sound : table.isSound = true) : table.Coherent where
  named key _ found := not_applies_of_isSound sound (.unnamed key) found
  typed key _ found :=
    Option.ne_none_iff_exists'.mp (not_applies_of_isSound sound (.untyped key) found)
  linked key record found := by
    have linked := not_applies_of_isSound sound (.spurious key) found
    exact (Record.hasEdges_iff record).mp (Bool.not_eq_false _ ▸ linked)
  distinct key _ field found :=
    Decidable.not_not.mp (not_applies_of_isSound sound (.repeats key field) found)
  closed key _ field found target edge := by
    obtain ⟨stored, present, -⟩ := answered_of_isSound sound found edge
    exact (table.mem_keys_iff target).mpr ((table.contains_iff target).mpr ⟨stored, present⟩)
  mentions _ _ _ _ := mem_inverse_iff_of_isSound sound
  calls _ _ _ _ := mem_inverse_iff_of_isSound sound

theorem isSound_iff_coherent : table.isSound = true ↔ table.Coherent :=
  ⟨coherent_of_isSound, fun coherent =>
    isSound_iff_forall_not_applies.mpr fun _ _ found => coherent.not_applies found⟩

/-! ## Counting faults -/

/-- A list of edges with the key and the field it belongs to. -/
structure EdgeList where
  /-- The key of the record. -/
  key : Key
  /-- The field of the record. -/
  field : EdgeField
  /-- The members of the list. -/
  targets : List Key

/-- An edge as it stands in a list. -/
structure ListedEdge where
  /-- The key of the record. -/
  key : Key
  /-- The field of the record. -/
  field : EdgeField
  /-- The key that the edge leads to. -/
  target : Key

/-- The lists of edges of a record. -/
def edgeListsOf (key : Key) (record : Record) : List EdgeList :=
  EdgeField.all.map fun field => ⟨key, field, record.edges field⟩

/-- The lists of edges of a table. -/
def edgeLists (table : Table) : List EdgeList :=
  table.entries.flatMap fun entry => edgeListsOf entry.1 entry.2

/-- The edges of a list, each as often as it stands there. -/
def EdgeList.edges (list : EdgeList) : List ListedEdge :=
  list.targets.map fun target => ⟨list.key, list.field, target⟩

/-- The edges of a table, each as often as it is listed. -/
def listedEdges (table : Table) : List ListedEdge :=
  table.edgeLists.flatMap EdgeList.edges

/-- Whether an edge leads to a record that lists the inverse edge. -/
def isAnswered (table : Table) (edge : ListedEdge) : Bool :=
  table.contains edge.target &&
    (table.edgesOf edge.target edge.field.inverse).contains edge.key

theorem edgeViolation?_eq_none_iff :
    table.edgeViolation? key field target = none ↔
      table.isAnswered ⟨key, field, target⟩ = true := by
  unfold edgeViolation? isAnswered edgesOf
  rw [Bool.and_eq_true, contains_iff]
  cases table.get? target with
  | none => simp
  | some record => simp

theorem length_fieldViolations (table : Table) (key : Key) (record : Record) (field : EdgeField) :
    (table.fieldViolations key record field).length =
      (if (record.edges field).Nodup then 0 else 1) +
        (EdgeList.edges ⟨key, field, record.edges field⟩).countP fun edge =>
          !table.isAnswered edge := by
  have faulty : (record.edges field).countP (fun target =>
        (table.edgeViolation? key field target).isSome) =
      (EdgeList.edges ⟨key, field, record.edges field⟩).countP fun edge =>
        !table.isAnswered edge := by
    rw [EdgeList.edges, List.countP_map]
    apply List.countP_congr
    intro target _
    rw [Function.comp_apply, Bool.not_eq_true', Bool.eq_false_iff, ne_eq,
      ← edgeViolation?_eq_none_iff, Option.isSome_iff_ne_none]
  rw [fieldViolations, List.length_append, List.length_filterMap_eq_countP, faulty]
  split <;> rfl

theorem length_flatMap_fieldViolations (table : Table) (key : Key) (record : Record)
    (fields : List EdgeField) :
    (fields.flatMap (table.fieldViolations key record)).length =
      (fields.map fun field => (⟨key, field, record.edges field⟩ : EdgeList)).countP
          (fun list => !decide list.targets.Nodup) +
        ((fields.map fun field => (⟨key, field, record.edges field⟩ : EdgeList)).flatMap
          EdgeList.edges).countP fun edge => !table.isAnswered edge := by
  induction fields with
  | nil => rfl
  | cons field fields induction =>
      rw [List.flatMap_cons, List.length_append, induction, length_fieldViolations, List.map_cons,
        List.countP_cons, List.flatMap_cons, List.countP_append]
      by_cases distinct : (record.edges field).Nodup
      · simp only [distinct, decide_true, Bool.not_true, Bool.false_eq_true, if_true, if_false]
        omega
      · simp only [distinct, decide_false, Bool.not_false, if_true, if_false]
        omega

theorem length_recordViolations (table : Table) (key : Key) (record : Record) :
    (table.recordViolations key record).length =
      (if record.name = "" then 1 else 0) + (if record.kind = none then 1 else 0) +
        (if record.hasEdges then 0 else 1) +
        (edgeListsOf key record).countP (fun list => !decide list.targets.Nodup) +
        ((edgeListsOf key record).flatMap EdgeList.edges).countP fun edge =>
          !table.isAnswered edge := by
  rw [recordViolations, List.length_append, List.length_append, List.length_append,
    length_flatMap_fieldViolations, edgeListsOf, ← Nat.add_assoc]
  simp only [String.isEmpty_iff, Option.isNone_iff_eq_none, apply_ite List.length,
    List.length_nil, List.length_singleton]

theorem length_flatMap_recordViolations (table : Table) (entries : List (Key × Record)) :
    (entries.flatMap fun entry => table.recordViolations entry.1 entry.2).length =
      entries.countP (fun entry => entry.2.name = "") +
        entries.countP (fun entry => entry.2.kind = none) +
        entries.countP (fun entry => !entry.2.hasEdges) +
        (entries.flatMap fun entry => edgeListsOf entry.1 entry.2).countP
          (fun list => !decide list.targets.Nodup) +
        ((entries.flatMap fun entry => edgeListsOf entry.1 entry.2).flatMap
          EdgeList.edges).countP fun edge => !table.isAnswered edge := by
  induction entries with
  | nil => rfl
  | cons entry entries induction =>
      rw [List.flatMap_cons, List.length_append, induction, length_recordViolations,
        List.flatMap_cons, List.flatMap_append, List.countP_append, List.countP_append,
        List.countP_cons, List.countP_cons, List.countP_cons]
      simp only [decide_eq_true_eq, Bool.not_eq_true']
      cases entry.2.hasEdges with
      | true =>
          simp only [Bool.true_eq_false, if_true, if_false]
          omega
      | false =>
          simp only [Bool.false_eq_true, if_true, if_false]
          omega

/-- The check of a table has nothing to say exactly when the table is coherent.  In every case it
has as many findings as there are faults: records without name, records without kind, records
without edges, lists that repeat a member, and listed edges that lead to no record or to one that
does not list the inverse edge. -/
theorem findings_exact (table : Table) (artifact : String) :
    (table.findings artifact = [] ↔ table.Coherent) ∧
      (table.findings artifact).length =
        table.entries.countP (fun entry => entry.2.name = "") +
          table.entries.countP (fun entry => entry.2.kind = none) +
          table.entries.countP (fun entry => !entry.2.hasEdges) +
          table.edgeLists.countP (fun list => !decide list.targets.Nodup) +
          table.listedEdges.countP fun edge => !table.isAnswered edge := by
  constructor
  · rw [← isSound_iff_coherent, isSound, List.isEmpty_iff, findings, List.map_eq_nil_iff]
  · rw [findings, List.length_map, violations, length_flatMap_recordViolations, edgeLists,
      listedEdges, edgeLists]

end Table

end CallGraph
