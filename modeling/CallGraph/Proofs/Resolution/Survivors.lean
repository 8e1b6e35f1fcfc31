import CallGraph.Proofs.Resolution.Sweep
import Mathlib

/-!
# What survives the sweep

A sweep ends after finitely many rounds, and what it leaves does not depend on them: the keys that
stay are the greatest set of keys of which each has an edge to one of them or to a key that never
was in the table.  Keys on a cycle of edges hold each other up and stay, and so does a record with
an edge that leads nowhere.
-/

namespace CallGraph

namespace Table

variable {table : Table}

/-- Whether lists of edges repeat a member can be told from the entries. -/
theorem edgesDistinct_iff :
    table.EdgesDistinct ↔
      ∀ entry ∈ table.entries, ∀ field ∈ EdgeField.all, (entry.2.edges field).Nodup := by
  constructor
  · intro distinct entry member field _
    have found := (table.mem_entries_iff entry.1 entry.2).mp member
    have repeatsNothing := distinct entry.1 field
    rwa [edgesOf_eq found] at repeatsNothing
  · intro distinct key field
    by_cases known : table.contains key = true
    · obtain ⟨record, found⟩ := (table.contains_iff key).mp known
      rw [edgesOf_eq found]
      exact distinct _ ((table.mem_entries_iff key record).mpr found) field
        (EdgeField.mem_all field)
    · rw [edgesOf_of_absent known]
      exact List.nodup_nil

instance : Decidable table.EdgesDistinct :=
  have _ (entry : Key × Record) :
      Decidable (∀ field ∈ EdgeField.all, (entry.2.edges field).Nodup) :=
    List.decidableBAll (fun field => (entry.2.edges field).Nodup) EdgeField.all
  decidable_of_iff _ edgesDistinct_iff.symm

/-! ## Keys and numbers along a round -/

theorem hasEdges_eq_of_mem {entry : Key × Record} (member : entry ∈ table.entries) :
    entry.2.hasEdges = !table.spuriousKeys.contains entry.1 := by
  have found := (table.mem_entries_iff entry.1 entry.2).mp member
  rw [Bool.eq_iff_iff, Bool.not_eq_true', Bool.eq_false_iff, ne_eq, List.contains_iff_mem,
    mem_spuriousKeys_iff, found]
  simp

theorem keys_sweepRound (table : Table) :
    (table.sweepRound table.spuriousKeys).keys =
      table.keys.filter fun key => !table.spuriousKeys.contains key := by
  change ((table.records.filter fun _ record => record.hasEdges).mapValues
    fun _ record => record.withoutEdgesTo table.spuriousKeys).keys = _
  rw [KeyMap.keys_mapValues, keys, KeyMap.keys, KeyMap.keys, List.filter_map]
  exact congrArg _ (List.filter_congr fun entry member => hasEdges_eq_of_mem member)

theorem length_spuriousKeys_add_size (table : Table) :
    table.spuriousKeys.length + (table.sweepRound table.spuriousKeys).size = table.size := by
  have gone : table.spuriousKeys.length =
      (table.entries.filter fun entry => !entry.2.hasEdges).length :=
    List.length_map _
  have stay : (table.sweepRound table.spuriousKeys).size =
      (table.entries.filter fun entry => entry.2.hasEdges).length :=
    List.length_map _
  have all : table.size = table.entries.length := rfl
  have split := table.entries.length_eq_length_filter_add fun entry => entry.2.hasEdges
  omega

/-! ## Keys and numbers along all rounds -/

/-- The keys that stay keep their order. -/
theorem keys_sweep (table : Table) :
    table.sweep.1.keys = table.keys.filter table.sweep.1.contains := by
  refine sweep_induction (motive := fun table final =>
    final.keys = table.keys.filter final.contains) ?_ ?_ table
  · intro table _
    symm
    rw [List.filter_eq_self]
    exact fun key member => (table.mem_keys_iff key).mp member
  · intro table final _ later
    rw [later, keys_sweepRound, List.filter_filter]
    apply List.filter_congr
    intro key _
    cases stays : final.contains key with
    | false => rfl
    | true =>
        have kept := (final.mem_keys_iff key).mpr stays
        rw [later, keys_sweepRound, List.mem_filter, List.mem_filter] at kept
        exact kept.1.2

theorem removed_add_size (table : Table) : table.sweep.2 + table.sweep.1.size = table.size := by
  by_cases settled : table.spuriousKeys = []
  · rw [sweep, dif_pos settled, Nat.zero_add]
  · have later := removed_add_size (table.sweepRound table.spuriousKeys)
    have round := table.length_spuriousKeys_add_size
    rw [sweep, dif_neg settled]
    dsimp only
    omega
termination_by table.size
decreasing_by exact size_sweepRound_lt table _ settled

/-! ## The greatest set of keys that hold each other up -/

/-- The keys that stay hold each other up. -/
theorem supported_sweep (distinct : table.EdgesDistinct) :
    table.Supported fun key => table.sweep.1.contains key = true where
  present _ stays := (sweptTo_sweep distinct).contains stays
  held key stays := by
    obtain ⟨record, found⟩ := (contains_iff _ _).mp stays
    obtain ⟨field, target, edge⟩ := (Record.hasEdges_iff record).mp (hasEdges_of_sweep found)
    have kept := (sweptTo_sweep distinct).mem_edgesOf_iff.mp (mem_edgesOf_iff.mpr ⟨_, found, edge⟩)
    refine ⟨field, target, kept.2.1, ?_⟩
    by_cases known : table.contains target = true
    · exact .inl (kept.2.2 known)
    · exact .inr known

/-- What a sweep makes of a table, said without its rounds. -/
structure Swept (table final : Table) (removed : Nat) : Prop where
  /-- Each key that stays has an edge to one that stays, or to one that never was there. -/
  supported : table.Supported fun key => final.contains key = true
  /-- Every set of keys that hold each other up stays. -/
  greatest : ∀ group, table.Supported group → ∀ key, group key → final.contains key = true
  /-- A record that stays says the same of its symbol, and each of its lists is the old one without
  the removed keys. -/
  records : ∀ key record, final.get? key = some record →
    ∃ old, table.get? key = some old ∧ record.name = old.name ∧ record.kind = old.kind ∧
      record.visibility = old.visibility ∧ record.origins = old.origins ∧
      ∀ field, record.edges field =
        (old.edges field).filter fun target => !(table.contains target && !final.contains target)
  /-- The keys that stay do so in their order. -/
  order : final.keys = table.keys.filter final.contains
  /-- The number counts the removed keys. -/
  count : removed = (table.keys.filter fun key => !final.contains key).length

/-- The sweep of a table whose lists repeat nothing leaves the greatest set of keys that hold each
other up, with their records as they were but for the removed keys, and counts those. -/
theorem swept_sweep (distinct : table.EdgesDistinct) :
    table.Swept table.sweep.1 table.sweep.2 where
  supported := supported_sweep distinct
  greatest _ supported _ member := supported.contains_sweep distinct member
  records key record found := by
    have swept := sweptTo_sweep distinct
    obtain ⟨old, present, body⟩ := swept.body key record found
    refine ⟨old, present, Record.name_eq_of_body body, Record.kind_eq_of_body body,
      Record.visibility_eq_of_body body, Record.origins_eq_of_body body, fun field => ?_⟩
    have edges := swept.edges key field ((contains_iff _ key).mpr ⟨record, found⟩)
    rw [edgesOf_eq found, edgesOf_eq present] at edges
    simp only [edges, Bool.not_and, Bool.not_not]
  order := table.keys_sweep
  count := by
    have sizes := table.removed_add_size
    have split := table.keys.length_eq_length_filter_add table.sweep.1.contains
    have stay : table.sweep.1.size = (table.keys.filter table.sweep.1.contains).length := by
      rw [← keys_sweep, keys, KeyMap.keys, List.length_map]
      rfl
    have all : table.size = table.keys.length := (List.length_map _).symm
    omega

/-- A ring of two callers, a caller of an unknown function, and three symbols of which each depends
on the one before. -/
def fallingChain : Table :=
  .ofRecords
    [("ping", { name := "ping", calls := ["pong", "leaf"] }),
     ("leaf", { name := "leaf" }),
     ("twig", { name := "twig", references := ["leaf"] }),
     ("pong", { name := "pong", calls := ["ping", "stem"] }),
     ("stem", { name := "stem", referring := ["twig"], calledBy := ["leaf"] }),
     ("lost", { name := "lost", calls := ["nowhere"] })]

/-- The chain falls in three rounds; the ring and the caller of the unknown function stay. -/
theorem swept_fallingChain :
    fallingChain.EdgesDistinct ∧ fallingChain.Swept fallingChain.sweep.1 fallingChain.sweep.2 ∧
      fallingChain.sweep.1.keys = ["ping", "pong", "lost"] ∧ fallingChain.sweep.2 = 3 := by
  have distinct : fallingChain.EdgesDistinct := by decide
  exact ⟨distinct, swept_sweep distinct, by cbv, by cbv⟩

end Table

end CallGraph
