import CallGraph.Artifact.Summary
import CallGraph.Artifact.Symbols
import CallGraph.Proofs.Components.Cyclic
import CallGraph.Proofs.Sorting
import Mathlib

/-!
# Artifacts and the order of insertion

A table remembers the order in which its keys came, and the search for components starts from them
in this order.  None of this shows in an artifact: two tables that give every key the same record
have the same persisted text, the same symbols and the same summary.
-/

namespace CallGraph

open Relation

/-! ## Components -/

namespace Digraph

variable {left right : Digraph} {nodes : List String}

theorem IsCyclicComponent.congr (same : left.Leads = right.Leads)
    (component : left.IsCyclicComponent nodes) : right.IsCyclicComponent nodes := by
  have reaches : left.Reaches = right.Reaches := by rw [Reaches, Reaches, same]
  obtain ⟨distinct, connected, maximal, cyclic⟩ := component
  rw [reaches] at connected maximal
  rw [same] at cyclic
  exact ⟨distinct, connected, maximal, cyclic⟩

/-- The members of a component in increasing order. -/
def inOrder (nodes : List String) : List String :=
  nodes.mergeSort fun left right => decide (left ≤ right)

theorem inOrder_eq_of_perm {others : List String} (perm : nodes.Perm others) :
    inOrder nodes = inOrder others :=
  orders_texts.mergeSort_eq (fun _ _ _ _ le ge =>
    String.le_antisymm (of_decide_eq_true le) (of_decide_eq_true ge)) perm

/-- Each cyclic component of a graph is found, and found once. -/
theorem exists_cyclicComponents (graph : Digraph) :
    (∀ component ∈ graph.cyclicComponents, graph.IsCyclicComponent component) ∧
      (∀ node, TransGen graph.Leads node node →
        ∃ component ∈ graph.cyclicComponents, node ∈ component) ∧
      (graph.cyclicComponents.map inOrder).Nodup := by
  obtain ⟨found, answer, sound, complete, apart⟩ := graph.exists_found
  have result : graph.cyclicComponents = found := by simp only [cyclicComponents, answer]
  rw [result]
  refine ⟨sound, complete, ?_⟩
  rw [List.Nodup, List.pairwise_map]
  refine apart.imp_of_mem fun {first second} firstListed _ disjoint same => ?_
  obtain ⟨node, member⟩ := (sound first firstListed).exists_mem
  have shared : node ∈ inOrder second := same ▸ List.mem_mergeSort.mpr member
  exact disjoint member (List.mem_mergeSort.mp shared)

theorem inOrder_cyclicComponents_subset (same : left.Leads = right.Leads) :
    left.cyclicComponents.map inOrder ⊆ right.cyclicComponents.map inOrder := by
  intro ordered member
  obtain ⟨nodes, listed, rfl⟩ := List.mem_map.mp member
  obtain ⟨sound, -, -⟩ := left.exists_cyclicComponents
  obtain ⟨soundRight, complete, -⟩ := right.exists_cyclicComponents
  have component := (sound nodes listed).congr same
  obtain ⟨node, inside⟩ := component.exists_mem
  obtain ⟨others, otherListed, shared⟩ := complete node (component.cycle inside)
  exact List.mem_map.mpr ⟨others, otherListed, inOrder_eq_of_perm
    ((soundRight others otherListed).perm component shared inside)⟩

/-- Graphs with the same edges have the same components, though they are found in another order and
their nodes come in another order. -/
theorem inOrder_cyclicComponents_perm (same : left.Leads = right.Leads) :
    (left.cyclicComponents.map inOrder).Perm (right.cyclicComponents.map inOrder) := by
  obtain ⟨-, -, distinct⟩ := left.exists_cyclicComponents
  obtain ⟨-, -, distinctRight⟩ := right.exists_cyclicComponents
  rw [List.perm_ext_iff_of_nodup distinct distinctRight]
  exact fun _ => ⟨fun listed => inOrder_cyclicComponents_subset same listed,
    fun listed => inOrder_cyclicComponents_subset same.symm listed⟩

end Digraph

/-! ## Tables with the same records -/

namespace Table

variable {left right : Table}

theorem entries_perm (same : ∀ key, left.get? key = right.get? key) :
    left.entries.Perm right.entries := by
  refine (List.perm_ext_iff_of_nodup left.records.distinct.of_map
    right.records.distinct.of_map).mpr ?_
  rintro ⟨key, record⟩
  change (key, record) ∈ left.entries ↔ (key, record) ∈ right.entries
  rw [mem_entries_iff, mem_entries_iff, same]

/-- The records of a list in which no key comes twice are the same in any order. -/
theorem get?_ofRecords_of_perm {entries others : List (Key × Record)} (perm : entries.Perm others)
    (distinct : (entries.map Prod.fst).Nodup) (key : Key) :
    (ofRecords entries).get? key = (ofRecords others).get? key := by
  have otherDistinct := (perm.map Prod.fst).nodup_iff.mp distinct
  ext record
  rw [ofRecords, ofRecords, get?, get?, KeyMap.get?_eq_some_iff, KeyMap.get?_eq_some_iff,
    KeyMap.entries_ofList distinct, KeyMap.entries_ofList otherDistinct, perm.mem_iff]

theorem sortedEntries_eq (same : ∀ key, left.get? key = right.get? key) :
    left.sortedEntries = right.sortedEntries :=
  mergeSort_first_eq left.records.distinct (entries_perm same)

theorem callEdges_eq (same : ∀ key, left.get? key = right.get? key) :
    left.callEdges = right.callEdges :=
  orders_pairLe.mergeSort_eq (fun _ _ _ _ le ge => eq_of_pairLe le ge)
    ((entries_perm same).flatMap_right _)

theorem leads_forwardGraph_eq (same : ∀ key, left.get? key = right.get? key) :
    left.forwardGraph.Leads = right.forwardGraph.Leads := by
  funext node target
  unfold Digraph.Leads Digraph.targetsOf forwardGraph
  simp only [KeyMap.get?_mapValues]
  rw [show left.records.get? node = right.records.get? node from same node]

theorem cycles_eq (same : ∀ key, left.get? key = right.get? key) :
    (left.forwardGraph.cyclicComponents.map Digraph.inOrder).mergeSort textsLe =
      (right.forwardGraph.cyclicComponents.map Digraph.inOrder).mergeSort textsLe :=
  orders_textsLe.mergeSort_eq (fun _ _ _ _ le ge => eq_of_textsLe le ge)
    (Digraph.inOrder_cyclicComponents_perm (leads_forwardGraph_eq same))

theorem functionsByFanIn_eq (same : ∀ key, left.get? key = right.get? key)
    (fanIn : KeyMap Nat) : left.functionsByFanIn fanIn = right.functionsByFanIn fanIn := by
  have functions : left.isFunction = right.isFunction := by
    funext key
    rw [isFunction, isFunction, same]
  rw [functionsByFanIn, functionsByFanIn, functions]

theorem count_eq (same : ∀ key, left.get? key = right.get? key) (test : Record → Bool) :
    left.count test = right.count test :=
  (entries_perm same).countP_eq _

theorem summary_eq (same : ∀ key, left.get? key = right.get? key) (top : Int) :
    left.summary top = right.summary top := by
  have size : left.size = right.size := (entries_perm same).length_eq
  have references : (left.entries.flatMap fun entry => entry.2.references).length =
      (right.entries.flatMap fun entry => entry.2.references).length :=
    ((entries_perm same).flatMap_right _).length_eq
  have cycles := cycles_eq same
  unfold Digraph.inOrder at cycles
  simp only [summary, size, count_eq same, callEdges_eq same, references, cycles,
    functionsByFanIn_eq same]

/-- The artifacts of a table depend on what it holds and not on the order in which it came: tables
that give every key the same record have the same persisted text, the same symbols, and the same
summary however many functions it names. -/
theorem artifacts_eq_of_get?_eq (same : ∀ key, left.get? key = right.get? key) :
    left.format = right.format ∧ left.symbolsText = right.symbolsText ∧
      (∀ top, left.summary top = right.summary top) ∧ left.summaryText = right.summaryText := by
  refine ⟨?_, ?_, summary_eq same, ?_⟩
  · rw [format, format, formatLines, formatLines, sortedEntries_eq same]
  · rw [symbolsText, symbolsText, symbolArtifacts, symbolArtifacts, sortedEntries_eq same]
  · rw [summaryText, summaryText, summary_eq same]

end Table

/-- Two functions that call each other, and a variable that mentions itself. -/
def twoLoops : List (Key × Record) :=
  [("g", { name := "g", kind := some .function, calls := ["f"], calledBy := ["f"] }),
    ("v", { name := "v", kind := some .object, references := ["v"], referring := ["v"] }),
    ("f", { name := "f", kind := some .function, calls := ["g"], calledBy := ["g"] })]

/-- Their components are found in another order from the other end. -/
theorem artifacts_eq_twoLoops :
    (Table.ofRecords twoLoops).forwardGraph.cyclicComponents = [["f", "g"], ["v"]] ∧
      (Table.ofRecords twoLoops.reverse).forwardGraph.cyclicComponents = [["g", "f"], ["v"]] ∧
      (Table.ofRecords twoLoops).format = (Table.ofRecords twoLoops.reverse).format ∧
      (Table.ofRecords twoLoops).summaryText = (Table.ofRecords twoLoops.reverse).summaryText := by
  have found : (Table.ofRecords twoLoops).forwardGraph.cyclicComponents =
      [["f", "g"], ["v"]] := by cbv
  have foundBack : (Table.ofRecords twoLoops.reverse).forwardGraph.cyclicComponents =
      [["g", "f"], ["v"]] := by cbv
  obtain ⟨format, -, -, summary⟩ := Table.artifacts_eq_of_get?_eq
    (Table.get?_ofRecords_of_perm twoLoops.reverse_perm.symm (by decide))
  exact ⟨found, foundBack, format, summary⟩

end CallGraph
