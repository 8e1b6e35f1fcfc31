import CallGraph.Proofs.Lookup
import CallGraph.Table.Violation

/-!
# When a breach is reported

Each kind of breach is on the list of violations exactly when a record or one of its edges is at
fault in the way that the breach names.
-/

namespace CallGraph

namespace Violation

/-- A record of a table is at fault in the way that a violation names. -/
def Applies (table : Table) (record : Record) : Violation → Prop
  | unnamed _ => record.name = ""
  | untyped _ => record.kind = none
  | spurious _ => record.hasEdges = false
  | repeats _ field => ¬ (record.edges field).Nodup
  | dangling _ field target => target ∈ record.edges field ∧ table.contains target = false
  | unanswered key field target =>
      target ∈ record.edges field ∧ table.contains target = true ∧
        key ∉ table.edgesOf target field.inverse

end Violation

namespace Table

theorem edgeViolation?_eq_some_iff {table : Table} {key target : Key} {field : EdgeField}
    {violation : Violation} :
    table.edgeViolation? key field target = some violation ↔
      violation = .dangling key field target ∧ table.contains target = false ∨
        violation = .unanswered key field target ∧ table.contains target = true ∧
          key ∉ table.edgesOf target field.inverse := by
  unfold edgeViolation?
  rw [mem_edgesOf_iff, ← Bool.not_eq_true, contains_iff]
  cases table.get? target with
  | none => simp [eq_comm]
  | some record => by_cases answers : key ∈ record.edges field.inverse <;> simp [answers, eq_comm]

theorem mem_fieldViolations_iff {table : Table} {key : Key} {record : Record}
    {field : EdgeField} {violation : Violation} :
    violation ∈ table.fieldViolations key record field ↔
      violation = .repeats key field ∧ violation.Applies table record ∨
        ∃ target, (violation = .dangling key field target ∨
            violation = .unanswered key field target) ∧
          violation.Applies table record := by
  rw [fieldViolations, List.mem_append, List.mem_filterMap]
  refine or_congr ?_ (exists_congr fun target => ?_)
  · by_cases distinct : (record.edges field).Nodup
    · rw [if_pos distinct]
      constructor
      · intro impossible
        cases impossible
      · rintro ⟨rfl, repeated⟩
        exact absurd distinct repeated
    · rw [if_neg distinct, List.mem_singleton]
      constructor
      · rintro rfl
        exact ⟨rfl, distinct⟩
      · exact And.left
  · rw [edgeViolation?_eq_some_iff]
    constructor
    · rintro ⟨listed, ⟨rfl, absent⟩ | ⟨rfl, fault⟩⟩
      · exact ⟨.inl rfl, listed, absent⟩
      · exact ⟨.inr rfl, listed, fault⟩
    · rintro ⟨rfl | rfl, fault⟩
      · exact ⟨fault.1, .inl ⟨rfl, fault.2⟩⟩
      · exact ⟨fault.1, .inr ⟨rfl, fault.2⟩⟩

/-- A violation is reported exactly when the record it names is at fault. -/
theorem mem_violations_iff {table : Table} {violation : Violation} :
    violation ∈ table.violations ↔
      ∃ record, table.get? violation.key = some record ∧ violation.Applies table record := by
  simp only [violations, List.mem_flatMap, Prod.exists, mem_entries_iff]
  constructor
  · rintro ⟨key, record, found, member⟩
    simp only [recordViolations, List.mem_append, List.mem_flatMap, mem_fieldViolations_iff]
      at member
    rcases member with ((name | kind) | edges) | ⟨field, -, repeated | ⟨target, edge, fault⟩⟩
    · split at name
      · next empty =>
          rw [List.mem_singleton] at name
          subst name
          exact ⟨record, found, by simpa [Violation.Applies] using empty⟩
      · cases name
    · split at kind
      · next missing =>
          rw [List.mem_singleton] at kind
          subst kind
          exact ⟨record, found, by simpa [Violation.Applies] using missing⟩
      · cases kind
    · split at edges
      · cases edges
      · next unlinked =>
          rw [List.mem_singleton] at edges
          subst edges
          exact ⟨record, found, by simpa [Violation.Applies] using unlinked⟩
    · obtain ⟨rfl, fault⟩ := repeated
      exact ⟨record, found, fault⟩
    · rcases edge with rfl | rfl
      · exact ⟨record, found, fault⟩
      · exact ⟨record, found, fault⟩
  · rintro ⟨record, found, fault⟩
    refine ⟨violation.key, record, found, ?_⟩
    simp only [recordViolations, List.mem_append, List.mem_flatMap, mem_fieldViolations_iff]
    cases violation with
    | unnamed key => exact .inl (.inl (.inl (by simp_all [Violation.Applies, Violation.key])))
    | untyped key => exact .inl (.inl (.inr (by simp_all [Violation.Applies, Violation.key])))
    | spurious key => exact .inl (.inr (by simp_all [Violation.Applies, Violation.key]))
    | repeats key field => exact .inr ⟨field, EdgeField.mem_all field, .inl ⟨rfl, fault⟩⟩
    | dangling key field target =>
        exact .inr ⟨field, EdgeField.mem_all field, .inr ⟨target, .inl rfl, fault⟩⟩
    | unanswered key field target =>
        exact .inr ⟨field, EdgeField.mem_all field, .inr ⟨target, .inr rfl, fault⟩⟩

/-! ## Sound tables -/

variable {table : Table} {key target : Key} {record : Record} {field : EdgeField}

theorem not_applies_of_isSound (sound : table.isSound = true) (violation : Violation)
    (found : table.get? violation.key = some record) : ¬ violation.Applies table record := by
  intro applies
  have reported := mem_violations_iff.mpr ⟨record, found, applies⟩
  rw [List.isEmpty_iff.mp sound] at reported
  cases reported

/-- Every edge of a sound table leads to a record that has the inverse edge. -/
theorem answered_of_isSound (sound : table.isSound = true) (found : table.get? key = some record)
    (edge : target ∈ record.edges field) :
    ∃ stored, table.get? target = some stored ∧ key ∈ stored.edges field.inverse := by
  have present : table.contains target = true := by
    cases known : table.contains target with
    | true => rfl
    | false =>
        exact absurd ⟨edge, known⟩
          (not_applies_of_isSound sound (.dangling key field target) found)
  apply mem_edgesOf_iff.mp
  by_cases answers : key ∈ table.edgesOf target field.inverse
  · exact answers
  · exact absurd ⟨edge, present, answers⟩
      (not_applies_of_isSound sound (.unanswered key field target) found)

end Table

end CallGraph
