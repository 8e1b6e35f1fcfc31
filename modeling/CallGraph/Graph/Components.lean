import CallGraph.Table.Basic

/-!
# Cyclic components

The strongly connected components that hold a cycle, found in one depth-first walk.  Every node
gets an index when it is opened and a low link, the least index known to be reachable from it
among the nodes that belong to no component yet.  A node whose low link is its own index closes a
component: all nodes opened since, and itself.

Targets need not be nodes of the graph themselves; they are opened like nodes without targets.
Every step opens a node, reads a target or leaves a node, so the walk ends on every graph.  A walk
fails when it closes a component at a node that is not on its stack.
-/

namespace CallGraph

/-- Texts in increasing order, each once. -/
def sortedSet (texts : List String) : List String :=
  (distinctMembers texts).mergeSort fun left right => decide (left ≤ right)

/-- A directed graph: the targets of every node, in increasing order. -/
structure Digraph where
  /-- The nodes with their targets, in the order in which the walk starts from them. -/
  targets : KeyMap (List String)

namespace Digraph

/-- The graph of a list of nodes with their targets. -/
def ofList (nodes : List (String × List String)) : Digraph :=
  ⟨KeyMap.ofList (nodes.map fun node => (node.1, sortedSet node.2))⟩

/-- The targets of a node. -/
def targetsOf (graph : Digraph) (node : String) : List String :=
  (graph.targets.get? node).getD []

/-- Whether an edge leads from a node to itself. -/
def hasLoop (graph : Digraph) (node : String) : Bool :=
  (graph.targetsOf node).contains node

end Digraph

/-- The calls and references of a table as a graph. -/
def Table.forwardGraph (table : Table) : Digraph :=
  ⟨table.records.mapValues fun _ record => sortedSet (record.calls ++ record.references)⟩

/-- Why the search for components fails. -/
inductive ComponentError where
  /-- The node at which a component is closed is not on the stack. -/
  | rootLost (root : String)
  deriving DecidableEq, Repr

open Text in
/-- What is said of a search that fails. -/
def ComponentError.message : ComponentError → String
  | rootLost root =>
      s!"Tarjan algorithm invariant violated: root node {quote root} " ++
        "not found in stack during SCC extraction."

namespace Components

/-- Where the walk stands. -/
structure Walk where
  /-- The nodes in the order in which they were opened, with their indices. -/
  index : KeyMap Nat := ∅
  /-- The low links of the opened nodes. -/
  low : KeyMap Nat := ∅
  /-- The opened nodes that belong to no component yet, last opened first. -/
  stack : List String := []
  /-- The cyclic components, in the order in which they were closed. -/
  found : List (List String) := []

/-- A node that is being walked, with its targets still to be read. -/
structure Visit where
  /-- The node. -/
  node : String
  /-- The targets still to be read. -/
  rest : List String

namespace Walk

/-- The index of a node; a node without one counts as opened first. -/
def indexOf (walk : Walk) (node : String) : Nat := (walk.index.get? node).getD 0

/-- The low link of a node. -/
def lowOf (walk : Walk) (node : String) : Nat := (walk.low.get? node).getD 0

/-- Open a node. -/
def openNode (walk : Walk) (node : String) : Walk :=
  { walk with
    index := walk.index.insert node walk.index.size
    low := walk.low.insert node walk.index.size
    stack := node :: walk.stack }

/-- A node can reach an index. -/
def lower (walk : Walk) (node : String) (index : Nat) : Walk :=
  { walk with low := walk.low.modify node (min · index) }

/-- Take the nodes opened since a node, and that node, from the stack. -/
def popThrough (walk : Walk) (node : String) : Except ComponentError (List String × Walk) :=
  if walk.stack.contains node then
    let component := walk.stack.takeWhile (· != node) ++ [node]
    .ok (component, { walk with stack := (walk.stack.dropWhile (· != node)).drop 1 })
  else .error (.rootLost node)

/-- Close the component of a node, and keep it if it holds a cycle. -/
def close (graph : Digraph) (walk : Walk) (node : String) : Except ComponentError Walk :=
  match walk.popThrough node with
  | .error error => .error error
  | .ok (component, rest) =>
      if component.length > 1 || graph.hasLoop node then
        .ok { rest with found := rest.found ++ [component] }
      else .ok rest

/-- The low link of a node counts for the node it was opened from. -/
def lowerParent (walk : Walk) (node : String) : Option String → Walk
  | some parent => walk.lower parent (walk.lowOf node)
  | none => walk

/-- Leave a node whose targets are all read: its low link counts for the node it was opened from,
and it may close a component. -/
def leave (graph : Digraph) (walk : Walk) (node : String) (parent : Option String) :
    Except ComponentError Walk :=
  let walk := walk.lowerParent node parent
  if walk.lowOf node = walk.indexOf node then walk.close graph node else .ok walk

end Walk

/-- What a step of the walk leads to. -/
inductive Step where
  /-- The walk is over. -/
  | halt (result : Except ComponentError Walk)
  /-- The walk goes on. -/
  | go (visits : List Visit) (walk : Walk)

/-- One step of the walk: leave a node, or read its next target. -/
def step (graph : Digraph) (visits : List Visit) (walk : Walk) : Step :=
  match visits with
  | [] => .halt (.ok walk)
  | ⟨node, []⟩ :: below =>
      match walk.leave graph node (below.head?.map Visit.node) with
      | .ok next => .go below next
      | .error error => .halt (.error error)
  | ⟨node, target :: rest⟩ :: below =>
      if !walk.index.contains target then
        .go (⟨target, graph.targetsOf target⟩ :: ⟨node, rest⟩ :: below) (walk.openNode target)
      else if walk.stack.contains target then
        .go (⟨node, rest⟩ :: below) (walk.lower node (walk.indexOf target))
      else .go (⟨node, rest⟩ :: below) walk

/-- The reading that nodes which were not opened yet may still need. -/
def pendingWork (opened : String → Bool) : List (String × List String) → Nat
  | [] => 0
  | entry :: entries =>
      (if opened entry.1 then 0 else 1 + 2 * entry.2.length) + pendingWork opened entries

/-- The reading that the nodes being walked still need. -/
def openWork : List Visit → Nat
  | [] => 0
  | visit :: visits => 1 + 2 * visit.rest.length + openWork visits

/-- A bound on the steps that are left. -/
def remaining (graph : Digraph) (visits : List Visit) (walk : Walk) : Nat :=
  pendingWork walk.index.contains graph.targets.entries + openWork visits

theorem pendingWork_mono (entries : List (String × List String)) {fewer more : String → Bool}
    (grows : ∀ node, fewer node = true → more node = true) :
    pendingWork more entries ≤ pendingWork fewer entries := by
  induction entries with
  | nil => simp [pendingWork]
  | cons entry entries induction =>
      simp only [pendingWork]
      have head : (if more entry.1 then 0 else 1 + 2 * entry.2.length) ≤
          if fewer entry.1 then 0 else 1 + 2 * entry.2.length := by
        have grown := grows entry.1
        split <;> split <;> simp_all
      omega

/-- Opening a node pays for the reading of its targets. -/
theorem pendingWork_open (entries : List (String × List String)) {fewer more : String → Bool}
    {node : String} (unopened : fewer node = false)
    (grows : ∀ other, more other = (other == node || fewer other)) :
    pendingWork more entries + 2 * ((entries.lookup node).getD []).length ≤
      pendingWork fewer entries := by
  induction entries with
  | nil => simp [pendingWork]
  | cons entry entries induction =>
      obtain ⟨name, targets⟩ := entry
      simp only [pendingWork, List.lookup_cons]
      by_cases same : name = node
      · subst same
        have tail : pendingWork more entries ≤ pendingWork fewer entries :=
          pendingWork_mono entries fun other known => by simp [grows, known]
        have opened : more name = true := by simp [grows]
        simp only [opened, if_true, unopened, BEq.rfl, Option.getD_some, Bool.false_eq_true,
          if_false]
        omega
      · have different : (node == name) = false := by simp [Ne.symm same]
        have known : more name = fewer name := by simp [grows, same]
        simp only [different, known]
        omega

theorem contains_openNode (walk : Walk) (node other : String) :
    (walk.openNode node).index.contains other = (other == node || walk.index.contains other) := by
  apply Bool.eq_iff_iff.mpr
  simp only [Walk.openNode, KeyMap.contains_iff, KeyMap.keys_insert, Bool.or_eq_true, beq_iff_eq]
  split
  · next present =>
      exact ⟨Or.inr, fun either => either.elim (fun same => same ▸ present) id⟩
  · simp [or_comm]

theorem index_close {graph : Digraph} {walk next : Walk} {node : String}
    (closed : walk.close graph node = .ok next) : next.index = walk.index := by
  unfold Walk.close Walk.popThrough at closed
  split at closed
  · cases closed
  · next component rest popped =>
      split at popped
      · cases popped
        split at closed <;> cases closed <;> rfl
      · cases popped

theorem index_leave {graph : Digraph} {walk next : Walk} {node : String} {parent : Option String}
    (left : walk.leave graph node parent = .ok next) : next.index = walk.index := by
  have lowered : (walk.lowerParent node parent).index = walk.index := by cases parent <;> rfl
  unfold Walk.leave at left
  dsimp only at left
  split at left
  · rw [index_close left, lowered]
  · cases left
    exact lowered

theorem step_decreases (graph : Digraph) (visits after : List Visit) (walk next : Walk)
    (moved : step graph visits walk = .go after next) :
    remaining graph after next < remaining graph visits walk := by
  unfold step at moved
  split at moved
  · cases moved
  · split at moved
    · next left =>
        cases moved
        simp [remaining, index_leave left, openWork]
    · cases moved
  · split at moved
    · next node target rest below unopened =>
        cases moved
        have paid := pendingWork_open graph.targets.entries (by simpa using unopened)
          (contains_openNode walk target)
        simp only [remaining, openWork, List.length_cons, Digraph.targetsOf, KeyMap.get?]
        omega
    · split at moved <;> cases moved <;>
        simp only [remaining, Walk.lower, openWork, List.length_cons] <;> omega

/-- Steps until every open node is left. -/
def run (graph : Digraph) (visits : List Visit) (walk : Walk) : Except ComponentError Walk :=
  match _moved : step graph visits walk with
  | .halt result => result
  | .go after next => run graph after next
termination_by remaining graph visits walk
decreasing_by exact step_decreases graph visits after walk next _moved

/-- Walk all that can be reached from a node, unless it was opened before. -/
def walkFrom (graph : Digraph) (walk : Walk) (node : String) : Except ComponentError Walk :=
  if walk.index.contains node then .ok walk
  else run graph [⟨node, graph.targetsOf node⟩] (walk.openNode node)

/-- Walk all that can be reached from the nodes of a list. -/
def walkAll (graph : Digraph) (walk : Walk) : List String → Except ComponentError Walk
  | [] => .ok walk
  | node :: nodes =>
      match walkFrom graph walk node with
      | .ok next => walkAll graph next nodes
      | .error error => .error error

end Components

namespace Digraph

/-- Find the strongly connected components that hold a cycle, in the order in which the walk closes
them, the nodes of each in the order in which they leave the stack. -/
def findComponents (graph : Digraph) : Except ComponentError (List (List String)) :=
  match Components.walkAll graph {} graph.targets.keys with
  | .ok walk => .ok walk.found
  | .error error => .error error

/-- The strongly connected components that hold a cycle; none if the search fails, which it never
does. -/
def cyclicComponents (graph : Digraph) : List (List String) :=
  match graph.findComponents with
  | .ok components => components
  | .error _ => []

end Digraph

end CallGraph
