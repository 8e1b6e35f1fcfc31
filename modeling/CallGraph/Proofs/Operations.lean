import CallGraph.Proofs.Merging.Outcome

/-!
# Operations that fail

An operation on a table that fails leaves the table as it was, with one exception.  Moving a record
takes it out of the table before it is put in again, so where the new key is taken the record is
lost.
-/

namespace CallGraph

/-- What may be done to a table. -/
inductive TableOperation where
  /-- Make sure that a key has a record. -/
  | ensure (key : Key)
  /-- Put a record under a key that has none. -/
  | insert (key : Key) (record : Record)
  /-- Take the record of a key out. -/
  | remove (key : Key)
  /-- Move a record to another key. -/
  | rekey (old new : Key)
  /-- Merge the record of a source into the one of a target. -/
  | merge (target source : Key)
  /-- Drop a record without edges. -/
  | dropSpurious (key : Key)

namespace TableOperation

variable {operation : TableOperation} {table after : Table} {error : TableError}

/-- Do it. -/
def perform : TableOperation → Table.Action Unit
  | ensure key => fun table => .ok () (table.ensure key)
  | insert key record => Table.insert key record
  | remove key => (fun _ => ()) <$> Table.remove key
  | rekey old new => Table.rekey old new
  | merge target source => Table.merge target source
  | dropSpurious key => fun table => .ok () (table.dropSpurious key)

/-- The table that an operation leaves, also when it fails. -/
def leave (table : Table) (operation : TableOperation) : Table :=
  match operation.perform table with
  | .ok _ after => after
  | .error _ after => after

/-- The table that operations leave, one after the other, also those that fail. -/
def leaveAll (table : Table) (operations : List TableOperation) : Table :=
  operations.foldl leave table

/-- A record is to be moved to a key that another record has. -/
def Collides (table : Table) : TableOperation → Prop
  | rekey old new => new ≠ old ∧ table.contains old = true ∧ table.contains new = true
  | ensure _ | insert .. | remove _ | merge .. | dropSpurious _ => False

/-- The record whose new key is taken is gone. -/
theorem perform_of_collides (collides : operation.Collides table) :
    ∃ old new, operation = .rekey old new ∧ table.contains old = true ∧
      operation.perform table = .error (.taken new) (table.erase old) := by
  cases operation with
  | rekey old new =>
      obtain ⟨different, present, taken⟩ := collides
      obtain ⟨record, found⟩ := (table.contains_iff old).mp present
      refine ⟨old, new, rfl, present, ?_⟩
      rw [perform, Table.rekey_eq, found]
      exact if_pos ⟨different, taken⟩
  | _ => exact collides.elim

/-- Every other failure is found before anything is changed. -/
theorem eq_of_perform_error (failed : operation.perform table = .error error after)
    (apart : ¬ operation.Collides table) : after = table := by
  cases operation with
  | ensure key => cases failed
  | dropSpurious key => cases failed
  | insert key record =>
      rw [perform, Table.insert] at failed
      split at failed <;> cases failed
      rfl
  | remove key =>
      change EStateM.map (fun _ => ()) (Table.remove key) table = _ at failed
      cases found : table.get? key with
      | none =>
          simp only [EStateM.map, Table.remove, found] at failed
          cases failed
          rfl
      | some record => simp [EStateM.map, Table.remove, found] at failed
  | rekey old new =>
      rw [perform, Table.rekey_eq] at failed
      cases found : table.get? old with
      | none =>
          rw [found] at failed
          cases failed
          rfl
      | some record =>
          have present : table.contains old = true := (table.contains_iff old).mpr ⟨record, found⟩
          simp only [found] at failed
          split at failed
          · next taken => exact absurd ⟨taken.1, present, taken.2⟩ apart
          · cases failed
  | merge target source => exact (Table.merge_error_iff.mp failed).1

/-- Whatever was done to a table before, an operation that fails leaves the table as it was, unless
a record was to be moved to a key that another record has; this always fails, and the record is
gone. -/
theorem failure_exact (start : Table) (history : List TableOperation) (operation : TableOperation) :
    let table := leaveAll start history
    (∀ error after, operation.perform table = .error error after →
        (after = table ↔ ¬ operation.Collides table)) ∧
      (operation.Collides table → ∃ old new, operation = .rekey old new ∧
        operation.perform table = .error (.taken new) (table.erase old)) := by
  intro table
  refine ⟨fun error after failed => ⟨?_, eq_of_perform_error failed⟩, fun collides => ?_⟩
  · rintro rfl collides
    obtain ⟨old, new, -, present, lost⟩ := perform_of_collides collides
    obtain ⟨-, unchanged⟩ := EStateM.Result.error.inj (failed.symm.trans lost)
    rw [unchanged, Table.contains_erase] at present
    exact present.1 rfl
  · obtain ⟨old, new, same, -, lost⟩ := perform_of_collides collides
    exact ⟨old, new, same, lost⟩

/-- An insertion and a removal that fail change nothing, a move onto a key that is taken does. -/
theorem failure_exact_takenKey :
    let history := [.ensure "f", .insert "f" {}, .remove "g", .ensure "g"]
    ∃ after, (rekey "f" "g").perform (leaveAll ∅ history) = .error (.taken "g") after ∧
      (leaveAll ∅ history).keys = ["f", "g"] ∧ after.keys = ["g"] := by
  intro history
  obtain ⟨old, new, same, lost⟩ := (failure_exact ∅ history (.rekey "f" "g")).2
    ⟨by decide, by decide, by decide⟩
  cases same
  exact ⟨_, lost, by decide, by decide⟩

end TableOperation

end CallGraph
