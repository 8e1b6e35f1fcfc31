import CallGraph.Proofs.Components.Cyclic
import CallGraph.Proofs.Search.Cycle

/-!
# Cycle searches and components

A table shows its cycles in two ways: a search goes depth first from the functions asked for until
it meets its own path, and the components are found in one walk over the graph of all calls and
references.  The two agree.  A search finds a cycle exactly if one of its starts reaches a cyclic
component, and the cycle that it closes lies in one of them.
-/

namespace CallGraph

open Relation

/-! ## The graph of a table -/

theorem mem_sortedSet {texts : List String} {text : String} :
    text ∈ sortedSet texts ↔ text ∈ texts := by
  simp [sortedSet]

namespace Table

variable {table : Table}

theorem leads_forwardGraph : table.forwardGraph.Leads = table.Leads .forward := by
  funext key next
  apply propext
  unfold Digraph.Leads Digraph.targetsOf forwardGraph Leads edgesOf get?
  rw [KeyMap.get?_mapValues]
  cases table.records.get? key with
  | none => simp [Direction.fields]
  | some record => simp [Direction.fields, mem_sortedSet, Record.edges]

end Table

/-! ## The end of a way into a cycle -/

theorem reaches_end_of_isChain {link : Key → Key → Prop} {keys : List Key} {final : Key}
    (chain : (keys ++ [final]).IsChain link) :
    ∀ key ∈ keys ++ [final], ReflTransGen link key final := by
  induction keys with
  | nil =>
      intro key member
      rw [List.mem_singleton.mp member]
  | cons first keys induction =>
      have later := induction chain.tail
      intro key member
      rcases List.mem_cons.mp member with rfl | inside
      · cases keys with
        | nil => exact .single (List.isChain_cons_cons.mp chain).1
        | cons second keys =>
            exact .head (List.isChain_cons_cons.mp chain).1 (later second List.mem_cons_self)
      · exact later key inside

namespace IsLasso

variable {table : Table} {query : Query} {start last : Key} {keys : List Key}

/-- A way into a cycle ends with the cycle: from the first occurrence of its last key on. -/
theorem exists_loop (lasso : IsLasso table query start keys) (isLast : keys.getLast? = some last) :
    ∃ before between, keys = before ++ last :: (between ++ [last]) ∧
      keys.drop (keys.idxOf last) = last :: (between ++ [last]) := by
  obtain ⟨key, passed, isKey⟩ := lasso.returns
  cases isLast.symm.trans isKey
  obtain ⟨before, between, split⟩ := List.append_of_mem passed
  have whole : keys = before ++ last :: (between ++ [last]) := by
    rw [← List.dropLast_append_getLast? last isLast, split]
    simp
  have fresh : last ∉ before := by
    have distinct := lasso.distinct
    rw [split, List.nodup_append] at distinct
    exact fun earlier => distinct.2.2 last earlier last List.mem_cons_self rfl
  refine ⟨before, between, whole, ?_⟩
  have position : keys.idxOf last = before.length := by
    rw [whole, List.idxOf_append_of_notMem fresh, List.idxOf_cons_self, Nat.add_zero]
  rw [position, whole, List.drop_left]

/-- The keys of the cycle reach its last key and are reached from it. -/
theorem mutual_of_mem_loop (lasso : IsLasso table query start keys)
    (isLast : keys.getLast? = some last) :
    TransGen (table.Leads query.direction) last last ∧
      ∀ key ∈ keys.drop (keys.idxOf last),
        ReflTransGen (table.Leads query.direction) last key ∧
          ReflTransGen (table.Leads query.direction) key last := by
  obtain ⟨before, between, whole, loop⟩ := lasso.exists_loop isLast
  have chain := lasso.chain
  rw [whole] at chain
  have loopChain : (last :: (between ++ [last])).IsChain (table.Leads query.direction) :=
    chain.right_of_append
  rw [loop]
  refine ⟨?_, fun key member => ⟨reaches_of_isChain loopChain key member, ?_⟩⟩
  · obtain ⟨second, later, rest⟩ : ∃ second later, between ++ [last] = second :: later :=
      List.exists_cons_of_ne_nil (by simp)
    have enters : table.Leads query.direction last second := by
      rw [rest] at loopChain
      exact (List.isChain_cons_cons.mp loopChain).1
    have back := reaches_end_of_isChain loopChain.tail second (by simp [rest])
    exact .head' enters back
  · exact @reaches_end_of_isChain _ (last :: between) last loopChain key member

end IsLasso

/-! ## Agreement -/

/-- Ask for a cycle of calls and references from the functions with accepted names. -/
def Query.anyCycle (start : String → Bool) : Query := { start, goal := .revisit }

namespace Table

variable {table : Table} {start : String → Bool} {key : Key}

theorem ignoredKeys_anyCycle : (Query.anyCycle start).ignoredKeys table = [] := by
  simp [Query.ignoredKeys, Query.anyCycle, Query.ignores]

theorem enters_anyCycle : table.Enters (.anyCycle start) = table.Leads .forward := by
  funext key next
  unfold Enters
  rw [ignoredKeys_anyCycle]
  simp only [List.not_mem_nil, not_false_eq_true, and_true]
  rfl

/-- A cycle is reached exactly if a cyclic component is. -/
theorem reachesCycle_iff {components : List (List String)}
    (sound : ∀ component ∈ components, table.forwardGraph.IsCyclicComponent component)
    (complete : ∀ node, TransGen table.forwardGraph.Leads node node →
      ∃ component ∈ components, node ∈ component) :
    table.ReachesCycle (.anyCycle start) key ↔
      ∃ component ∈ components, ∃ node ∈ component,
        ReflTransGen (table.Leads .forward) key node := by
  unfold ReachesCycle
  rw [enters_anyCycle]
  constructor
  · rintro ⟨node, way, cycle⟩
    rw [← leads_forwardGraph] at cycle
    obtain ⟨component, listed, member⟩ := complete node cycle
    exact ⟨component, listed, node, member, way⟩
  · rintro ⟨component, listed, node, member, way⟩
    refine ⟨node, way, ?_⟩
    rw [← leads_forwardGraph]
    exact (sound component listed).cycle member

/-- A cycle search and the search for components agree on a table whose calls and references all
lead to records: a cycle is found exactly if some start reaches a member of a cyclic component, and
the keys from the first occurrence of its last key to its end lie in one such component. -/
theorem search_cycle_iff_component (closed : table.ClosedUnder .forward) (start : String → Bool) :
    ∃ keys components, (table.search (.anyCycle start)).keys = .ok keys ∧
      table.forwardGraph.findComponents = .ok components ∧
      (keys ≠ [] ↔ ∃ key, table.HasFunction start key ∧
        ∃ component ∈ components, ∃ node ∈ component,
          ReflTransGen (table.Leads .forward) key node) ∧
      ∀ last, keys.getLast? = some last →
        ∃ component ∈ components, ∀ key ∈ keys.drop (keys.idxOf last), key ∈ component := by
  obtain ⟨components, answered, sound, complete, -⟩ := table.forwardGraph.exists_found
  have passes : ∀ key, key ∉ (Query.anyCycle start).ignoredKeys table := by
    simp [ignoredKeys_anyCycle]
  rcases @search_cycle_cases table (.anyCycle start) rfl closed with
    ⟨before, first, after, keys, split, answer, lasso, -⟩ | ⟨answer, ⟨final, cleared⟩, -⟩
  · refine ⟨keys, components, answer, answered, ⟨fun _ => ?_, fun _ empty => ?_⟩,
      fun last isLast => ?_⟩
    · exact ⟨first, lasso.starts,
        (reachesCycle_iff sound complete).mp (lasso.reachesCycle (passes first))⟩
    · subst empty
      simpa using lasso.head
    · obtain ⟨cycle, loop⟩ := lasso.mutual_of_mem_loop isLast
      change TransGen (table.Leads .forward) last last at cycle
      rw [← leads_forwardGraph] at cycle
      obtain ⟨component, listed, member⟩ := complete last cycle
      refine ⟨component, listed, fun key inside => ?_⟩
      obtain ⟨there, back⟩ := loop key inside
      change ReflTransGen (table.Leads .forward) last key at there
      change ReflTransGen (table.Leads .forward) key last at back
      rw [← leads_forwardGraph] at there back
      exact (sound component listed).maximal last member key there back
  · refine ⟨[], components, answer, answered, ⟨fun some => absurd rfl some, ?_⟩, nofun⟩
    rintro ⟨key, isStart, reached⟩
    have dead := (cleared.searched key (Query.mem_candidates_iff.mpr isStart)).1
    exact absurd ((reachesCycle_iff sound complete).mpr reached)
      (cleared.no_cycle dead (passes key))

end Table

/-- A function that calls one which mentions it, and a function that calls both. -/
def mentionedCaller : Table :=
  .ofRecords
    [("f", { name := "f", kind := some .function, calls := ["g", "h"] }),
      ("g", { name := "g", kind := some .function, calls := ["h"] }),
      ("h", { name := "h", kind := some .function, references := ["g"] })]

theorem search_cycle_iff_component_mentionedCaller :
    (mentionedCaller.search (.anyCycle (· == "f"))).keys = .ok ["f", "g", "h", "g"] ∧
      mentionedCaller.forwardGraph.findComponents = .ok [["h", "g"]] ∧
      ∃ component ∈ [["h", "g"]], ∀ key ∈ ["g", "h", "g"], key ∈ component := by
  have closed : mentionedCaller.ClosedUnder .forward := by decide +kernel
  have answer : (mentionedCaller.search (.anyCycle (· == "f"))).keys =
      .ok ["f", "g", "h", "g"] := by cbv
  have found : mentionedCaller.forwardGraph.findComponents = .ok [["h", "g"]] := by cbv
  obtain ⟨keys, components, answered, foundAgain, -, inside⟩ :=
    Table.search_cycle_iff_component closed (· == "f")
  cases answer.symm.trans answered
  cases found.symm.trans foundAgain
  exact ⟨answer, found, inside "g" rfl⟩

end CallGraph
