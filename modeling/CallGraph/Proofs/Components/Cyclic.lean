import CallGraph.Proofs.Components.Segments
import Mathlib.Data.List.Perm.Basic

/-!
# Cyclic components

What the search for components returns is exactly the strongly connected components that hold a
cycle, each once, and it never fails.  When a node is left whose low link is its index, its segment
is a component: the node reaches the segment, the segment reaches the node, and whatever leaves the
segment ends in components that were closed before.
-/

namespace CallGraph

open Relation

/-- A strongly connected component that holds a cycle, its nodes listed without repetition. -/
structure Digraph.IsCyclicComponent (graph : Digraph) (nodes : List String) : Prop where
  /-- No node is listed twice. -/
  distinct : nodes.Nodup
  /-- Any two nodes reach each other. -/
  connected : ∀ node ∈ nodes, ∀ other ∈ nodes, graph.Reaches node other
  /-- No further node and a node of the component reach each other. -/
  maximal : ∀ node ∈ nodes, ∀ other, graph.Reaches node other → graph.Reaches other node →
    other ∈ nodes
  /-- There are several nodes, or there is an edge from a node to itself. -/
  cyclic : 1 < nodes.length ∨ ∃ node ∈ nodes, graph.Leads node node

namespace Digraph.IsCyclicComponent

variable {graph : Digraph} {nodes others : List String} {node : String}

/-- The nodes of a cyclic component lie on cycles. -/
theorem cycle (component : graph.IsCyclicComponent nodes) (member : node ∈ nodes) :
    TransGen graph.Leads node node := by
  rcases component.cyclic with several | ⟨other, listed, loop⟩
  · obtain ⟨other, listed, different⟩ : ∃ other ∈ nodes, node ≠ other := by
      by_contra none
      push Not at none
      have single : nodes ⊆ [node] := fun other listed => by simp [none other listed]
      have short := (List.subperm_of_subset component.distinct single).length_le
      simp at short
      omega
    have there := component.connected node member other listed
    have back := component.connected other listed node member
    rcases reflTransGen_iff_eq_or_transGen.mp there with same | way
    · exact absurd same.symm different
    · exact way.trans_left back
  · have there := component.connected node member other listed
    have back := component.connected other listed node member
    exact (TransGen.tail' there loop).trans_left back

/-- Two cyclic components that share a node have the same nodes. -/
theorem perm (component : graph.IsCyclicComponent nodes) (other : graph.IsCyclicComponent others)
    (member : node ∈ nodes) (shared : node ∈ others) : nodes.Perm others := by
  rw [List.perm_ext_iff_of_nodup component.distinct other.distinct]
  intro further
  constructor
  · intro listed
    exact other.maximal node shared further (component.connected node member further listed)
      (component.connected further listed node member)
  · intro listed
    exact component.maximal node member further (other.connected node shared further listed)
      (other.connected further listed node shared)

theorem exists_mem (component : graph.IsCyclicComponent nodes) : ∃ node, node ∈ nodes := by
  rcases component.cyclic with several | ⟨node, listed, -⟩
  · exact List.exists_mem_of_length_pos (by omega)
  · exact ⟨node, listed⟩

end Digraph.IsCyclicComponent

namespace Components

variable {graph : Digraph} {walk next : Walk} {segment : Segment} {segments below : List Segment}
  {node other : String}

/-! ## A segment that is closed -/

namespace Segmented

theorem done_of_reaches (segmented : Segmented graph segments walk) (done : walk.Done node)
    (reached : graph.Reaches node other) : walk.Done other := by
  induction reached with
  | refl => exact done
  | tail _ leads induction => exact segmented.closed _ induction _ leads

theorem mem_or_done_of_reaches (segmented : Segmented graph (segment :: below) walk)
    (finished : segment.rest = []) (isRoot : walk.lowOf segment.node = walk.indexOf segment.node)
    (member : node ∈ segment.nodes) (reached : graph.Reaches node other) :
    other ∈ segment.nodes ∨ walk.Done other := by
  induction reached with
  | refl => exact .inl member
  | tail _ leads induction =>
      rcases induction with inside | done
      · exact segmented.done_or_mem finished isRoot inside leads
      · exact .inr (segmented.closed _ done _ leads)

theorem root_reaches (segmented : Segmented graph (segment :: below) walk)
    (member : node ∈ segment.nodes) : graph.Reaches segment.node node := by
  rcases List.mem_append.mp member with listed | isNode
  · exact (segmented.sound segment List.mem_cons_self).reaches node listed
  · rw [List.mem_singleton.mp isNode]
    exact .refl

/-- Every node of the segment comes down to its first, by way of nodes opened ever earlier. -/
theorem reaches_root (segmented : Segmented graph (segment :: below) walk)
    (finished : segment.rest = []) (isRoot : walk.lowOf segment.node = walk.indexOf segment.node)
    (member : node ∈ segment.nodes) : graph.Reaches node segment.node := by
  induction order : walk.indexOf node using Nat.strong_induction_on generalizing node with
  | _ index induction =>
      rcases List.mem_append.mp member with listed | isNode
      · obtain ⟨earlier, onStack, less, reached⟩ :=
          (segmented.sound segment List.mem_cons_self).climbs node listed
        rcases segmented.mem_or_done_of_reaches finished isRoot member reached with inside | done
        · exact reached.trans (induction _ (order ▸ less) inside rfl)
        · exact absurd onStack done.2
      · rw [List.mem_singleton.mp isNode]
        exact .refl

theorem nodes_nodup (segmented : Segmented graph (segment :: below) walk) :
    segment.nodes.Nodup := by
  have distinct := segmented.nodup
  rw [segmented.stack, List.flatMap_cons, List.nodup_append] at distinct
  exact distinct.1

theorem connected (segmented : Segmented graph (segment :: below) walk)
    (finished : segment.rest = []) (isRoot : walk.lowOf segment.node = walk.indexOf segment.node) :
    ∀ node ∈ segment.nodes, ∀ other ∈ segment.nodes, graph.Reaches node other := by
  intro node member other listed
  exact (segmented.reaches_root finished isRoot member).trans (segmented.root_reaches listed)

theorem maximal (segmented : Segmented graph (segment :: below) walk)
    (finished : segment.rest = []) (isRoot : walk.lowOf segment.node = walk.indexOf segment.node) :
    ∀ node ∈ segment.nodes, ∀ other, graph.Reaches node other → graph.Reaches other node →
      other ∈ segment.nodes := by
  intro node member other there back
  rcases segmented.mem_or_done_of_reaches finished isRoot member there with inside | done
  · exact inside
  · have onStack := segmented.mem_stack List.mem_cons_self node member
    exact absurd onStack (segmented.done_of_reaches done back).2

/-- The topmost segment is what is taken from the stack. -/
theorem popThrough_eq (segmented : Segmented graph (segment :: below) walk) :
    walk.popThrough segment.node =
      .ok (segment.nodes, { walk with stack := below.flatMap Segment.nodes }) := by
  have stack : walk.stack = segment.members ++ segment.node :: below.flatMap Segment.nodes := by
    simp [segmented.stack, Segment.nodes]
  have distinct := segmented.nodes_nodup
  rw [Segment.nodes, List.nodup_append] at distinct
  have before : ∀ member ∈ segment.members, (member != segment.node) = true := by
    intro member listed
    rw [bne_iff_ne]
    exact distinct.2.2 member listed segment.node List.mem_cons_self
  have onStack : walk.stack.contains segment.node = true := by
    simpa using segmented.node_mem_stack List.mem_cons_self
  have taken : walk.stack.takeWhile (· != segment.node) = segment.members := by
    rw [stack, List.takeWhile_append_of_pos before]
    simp
  have left : walk.stack.dropWhile (· != segment.node) =
      segment.node :: below.flatMap Segment.nodes := by
    rw [stack, List.dropWhile_append_of_pos before]
    simp
  rw [Walk.popThrough, if_pos onStack, taken, left]
  rfl

end Segmented

/-! ## The components found so far -/

/-- The components found so far are those of the nodes that are done. -/
structure Recorded (graph : Digraph) (walk : Walk) : Prop where
  /-- Each is a cyclic component of nodes that are done. -/
  sound : ∀ component ∈ walk.found, graph.IsCyclicComponent component ∧
    ∀ node ∈ component, walk.Done node
  /-- Each node that is done and lies on a cycle is in one. -/
  complete : ∀ node, walk.Done node → TransGen graph.Leads node node →
    ∃ component ∈ walk.found, node ∈ component
  /-- No two share a node. -/
  apart : walk.found.Pairwise List.Disjoint

namespace Recorded

theorem congr (recorded : Recorded graph walk) (found : next.found = walk.found)
    (done : ∀ node, next.Done node ↔ walk.Done node) : Recorded graph next where
  sound component listed := by
    rw [found] at listed
    obtain ⟨cyclic, members⟩ := recorded.sound component listed
    exact ⟨cyclic, fun node member => (done node).mpr (members node member)⟩
  complete node isDone cycle := by
    rw [found]
    exact recorded.complete node ((done node).mp isDone) cycle
  apart := by
    rw [found]
    exact recorded.apart

theorem openNode (recorded : Recorded graph walk) (fresh : ¬ walk.Opened node) :
    Recorded graph (walk.openNode node) := by
  refine recorded.congr rfl fun other => ?_
  have stack : (walk.openNode node).stack = node :: walk.stack := rfl
  rw [Walk.Done, Walk.Done, Walk.opened_openNode_iff, stack, List.mem_cons, not_or]
  constructor
  · rintro ⟨isNew | opened, different, offStack⟩
    · exact absurd isNew different
    · exact ⟨opened, offStack⟩
  · rintro ⟨opened, offStack⟩
    exact ⟨.inr opened, fun same => fresh (same ▸ opened), offStack⟩

variable {nodes : List String}

/-- Nodes that are done from now on and lie on no cycle need no component. -/
theorem skip (recorded : Recorded graph walk) (found : next.found = walk.found)
    (done : ∀ node, next.Done node ↔ node ∈ nodes ∨ walk.Done node)
    (acyclic : ∀ node ∈ nodes, ¬ TransGen graph.Leads node node) : Recorded graph next where
  sound component listed := by
    rw [found] at listed
    obtain ⟨cyclic, members⟩ := recorded.sound component listed
    exact ⟨cyclic, fun node member => (done node).mpr (.inr (members node member))⟩
  complete node isDone cycle := by
    rw [found]
    rcases (done node).mp isDone with isNew | old
    · exact absurd cycle (acyclic node isNew)
    · exact recorded.complete node old cycle
  apart := by
    rw [found]
    exact recorded.apart

/-- A cyclic component of nodes that are done from now on is put to the others. -/
theorem keep (recorded : Recorded graph walk) (found : next.found = walk.found ++ [nodes])
    (done : ∀ node, next.Done node ↔ node ∈ nodes ∨ walk.Done node)
    (isNew : ∀ node ∈ nodes, ¬ walk.Done node) (cyclic : graph.IsCyclicComponent nodes) :
    Recorded graph next where
  sound component listed := by
    rw [found] at listed
    rcases List.mem_append.mp listed with old | last
    · obtain ⟨cyclic, members⟩ := recorded.sound component old
      exact ⟨cyclic, fun node member => (done node).mpr (.inr (members node member))⟩
    · rw [List.mem_singleton.mp last]
      exact ⟨cyclic, fun node member => (done node).mpr (.inl member)⟩
  complete node isDone cycle := by
    rw [found]
    rcases (done node).mp isDone with member | old
    · exact ⟨nodes, by simp, member⟩
    · obtain ⟨component, listed, member⟩ := recorded.complete node old cycle
      exact ⟨component, List.mem_append_left _ listed, member⟩
  apart := by
    rw [found]
    refine List.pairwise_append.mpr ⟨recorded.apart, List.pairwise_singleton _ _, ?_⟩
    intro component listed last isLast
    rw [List.mem_singleton.mp isLast]
    intro node member shared
    exact isNew node shared ((recorded.sound component listed).2 node member)

end Recorded

/-- Closing a component never fails, and what is found stays exact. -/
theorem exists_close (segmented : Segmented graph (segment :: below) walk)
    (recorded : Recorded graph walk) (finished : segment.rest = [])
    (isRoot : walk.lowOf segment.node = walk.indexOf segment.node) :
    ∃ next, walk.close graph segment.node = .ok next ∧ Segmented graph below next ∧
      Recorded graph next := by
  have whole : walk.stack = segment.nodes ++ below.flatMap Segment.nodes := by
    rw [segmented.stack, List.flatMap_cons]
  have done : ∀ next : Walk, next.index = walk.index →
      next.stack = below.flatMap Segment.nodes →
      ∀ node, next.Done node ↔ node ∈ segment.nodes ∨ walk.Done node := by
    intro next index stack node
    have apart : node ∈ segment.nodes → node ∉ next.stack := by
      intro member kept
      exact Nat.lt_irrefl _ (segmented.lt_of_top node member node (stack ▸ kept))
    rw [Walk.Done, Walk.Done, Walk.Opened, Walk.Opened, index, whole, ← stack, List.mem_append]
    constructor
    · rintro ⟨opened, offStack⟩
      by_cases member : node ∈ segment.nodes
      · exact .inl member
      · exact .inr ⟨opened, by simp [member, offStack]⟩
    · rintro (member | ⟨opened, offStack⟩)
      · exact ⟨segmented.opened node (segmented.mem_stack List.mem_cons_self node member),
          apart member⟩
      · exact ⟨opened, fun kept => offStack (.inr kept)⟩
  have isNew : ∀ node ∈ segment.nodes, ¬ walk.Done node := fun node member isDone =>
    isDone.2 (segmented.mem_stack List.mem_cons_self node member)
  have connected := segmented.connected finished isRoot
  have maximal := segmented.maximal finished isRoot
  rw [Walk.close, segmented.popThrough_eq]
  by_cases cyclic : (segment.nodes.length > 1 || graph.hasLoop segment.node) = true
  · refine ⟨_, if_pos cyclic, segmented.drop finished isRoot rfl rfl rfl,
      recorded.keep rfl (done _ rfl rfl) isNew
        ⟨segmented.nodes_nodup, connected, maximal, ?_⟩⟩
    rw [Bool.or_eq_true, decide_eq_true_eq, Digraph.hasLoop, List.contains_iff_mem] at cyclic
    exact cyclic.imp_right fun loop => ⟨segment.node, by simp [Segment.nodes], loop⟩
  · refine ⟨_, if_neg cyclic, segmented.drop finished isRoot rfl rfl rfl,
      recorded.skip rfl (done _ rfl rfl) fun node member cycle => ?_⟩
    rw [Bool.or_eq_true, decide_eq_true_eq, Digraph.hasLoop, List.contains_iff_mem] at cyclic
    have single : segment.nodes = [segment.node] := by
      have short : ¬ 1 < segment.nodes.length := fun several => cyclic (.inl several)
      simp only [Segment.nodes, List.length_append, List.length_singleton] at short
      rw [Segment.nodes, List.length_eq_zero_iff.mp (by omega : segment.members.length = 0)]
      rfl
    have isRootNode : ∀ other ∈ segment.nodes, other = segment.node := by simp [single]
    obtain ⟨second, leads, back⟩ := TransGen.head'_iff.mp cycle
    have inside := maximal node member second (.single leads) back
    rw [isRootNode node member, isRootNode second inside] at leads
    exact cyclic (.inr leads)

/-! ## The walk -/

/-- What one step of the walk can do. -/
inductive Move (graph : Digraph) : List Visit → Walk → Step → Prop
  | ended (walk : Walk) : Move graph [] walk (.halt (.ok walk))
  | left (node : String) (below : List Visit) (walk next : Walk)
      (ok : walk.leave graph node (below.head?.map Visit.node) = .ok next) :
      Move graph (⟨node, []⟩ :: below) walk (.go below next)
  | failed (node : String) (below : List Visit) (walk : Walk) (error : ComponentError)
      (refused : walk.leave graph node (below.head?.map Visit.node) = .error error) :
      Move graph (⟨node, []⟩ :: below) walk (.halt (.error error))
  | opened (node target : String) (rest : List String) (below : List Visit) (walk : Walk)
      (fresh : ¬ walk.Opened target) :
      Move graph (⟨node, target :: rest⟩ :: below) walk
        (.go (⟨target, graph.targetsOf target⟩ :: ⟨node, rest⟩ :: below) (walk.openNode target))
  | lowered (node target : String) (rest : List String) (below : List Visit) (walk : Walk)
      (known : walk.Opened target) (onStack : target ∈ walk.stack) :
      Move graph (⟨node, target :: rest⟩ :: below) walk
        (.go (⟨node, rest⟩ :: below) (walk.lower node (walk.indexOf target)))
  | passed (node target : String) (rest : List String) (below : List Visit) (walk : Walk)
      (done : walk.Done target) :
      Move graph (⟨node, target :: rest⟩ :: below) walk (.go (⟨node, rest⟩ :: below) walk)

theorem step_spec (visits : List Visit) (walk : Walk) :
    Move graph visits walk (step graph visits walk) := by
  match visits with
  | [] => exact .ended walk
  | ⟨node, []⟩ :: below =>
      cases result : walk.leave graph node (below.head?.map Visit.node) with
      | ok next =>
          simp only [step, result]
          exact .left node below walk next result
      | error error =>
          simp only [step, result]
          exact .failed node below walk error result
  | ⟨node, target :: rest⟩ :: below =>
      rw [step]
      split
      · next unopened =>
          refine .opened node target rest below walk fun opened => ?_
          rw [(KeyMap.contains_iff _ _).mpr opened] at unopened
          cases unopened
      · next opened =>
          have known : walk.Opened target := (KeyMap.contains_iff _ _).mp (by simpa using opened)
          split
          · next onStack =>
              exact .lowered node target rest below walk known (List.contains_iff_mem.mp onStack)
          · next offStack =>
              exact .passed node target rest below walk
                ⟨known, fun member => offStack (List.contains_iff_mem.mpr member)⟩

/-- What holds after every step. -/
def Underway (graph : Digraph) (visits : List Visit) (walk : Walk) : Prop :=
  ∃ segments, visits = segments.map Segment.visit ∧ Segmented graph segments walk ∧
    Recorded graph walk

theorem underway_empty : Underway graph [] {} := by
  have closed : ∀ node, ¬ Walk.Done {} node := by
    rintro node ⟨opened, -⟩
    cases opened
  exact ⟨[], rfl,
    ⟨rfl, .nil, nofun, nofun, rfl, .nil, nofun, fun node done => absurd done (closed node)⟩,
    nofun, fun node done => absurd done (closed node), .nil⟩

namespace Underway

variable {visits after : List Visit} {rest : List String} {target : String}

theorem exists_top (underway : Underway graph (⟨node, rest⟩ :: visits) walk) :
    ∃ members below, visits = below.map Segment.visit ∧
      Segmented graph (⟨node, rest, members⟩ :: below) walk ∧ Recorded graph walk := by
  obtain ⟨segments, shape, segmented, recorded⟩ := underway
  obtain ⟨⟨name, unread, members⟩, below, rfl, isTop, rest⟩ := List.map_eq_cons_iff.mp shape.symm
  cases isTop
  exact ⟨members, below, rest.symm, segmented, recorded⟩

theorem openFirst (underway : Underway graph [] walk) (fresh : ¬ walk.Opened node) :
    Underway graph [⟨node, graph.targetsOf node⟩] (walk.openNode node) := by
  obtain ⟨segments, shape, segmented, recorded⟩ := underway
  cases List.map_eq_nil_iff.mp shape.symm
  exact ⟨_, rfl, segmented.openNode fresh nofun, recorded.openNode fresh⟩

theorem openTarget (underway : Underway graph (⟨node, target :: rest⟩ :: visits) walk)
    (fresh : ¬ walk.Opened target) :
    Underway graph (⟨target, graph.targetsOf target⟩ :: ⟨node, rest⟩ :: visits)
      (walk.openNode target) := by
  obtain ⟨members, below, rfl, segmented, recorded⟩ := underway.exists_top
  have sound := segmented.sound _ List.mem_cons_self
  have begun := segmented.openNode fresh fun top isTop => by
    cases isTop
    exact sound.unread target List.mem_cons_self
  have isNode : node ∈ walk.stack := segmented.node_mem_stack List.mem_cons_self
  have low : (walk.openNode target).lowOf node = walk.lowOf node := by
    rw [Walk.lowOf_openNode, if_neg]
    rintro rfl
    exact fresh (segmented.opened _ isNode)
  have above : (walk.openNode target).Above ((walk.openNode target).lowOf node) target := by
    refine ⟨Walk.opened_openNode_iff.mpr (.inl rfl), fun _ => ?_⟩
    have bound := segmented.bounded node (segmented.opened node isNode)
    have le : walk.lowOf node ≤ walk.indexOf node := sound.low_le
    rw [low, Walk.indexOf_openNode, if_pos rfl]
    omega
  have read := (begun.sound ⟨node, target :: rest, members⟩ (by simp)).readTarget rfl above
  exact ⟨⟨target, graph.targetsOf target, []⟩ :: ⟨node, rest, members⟩ :: below, rfl,
    @Segmented.replace _ _ _ [_] _ _ begun rfl rfl read, recorded.openNode fresh⟩

theorem lowerTo (underway : Underway graph (⟨node, target :: rest⟩ :: visits) walk)
    (known : walk.Opened target) (onStack : target ∈ walk.stack) :
    Underway graph (⟨node, rest⟩ :: visits) (walk.lower node (walk.indexOf target)) := by
  obtain ⟨members, below, rfl, segmented, recorded⟩ := underway.exists_top
  have leads := (segmented.sound _ List.mem_cons_self).unread target List.mem_cons_self
  have lowered := segmented.lower onStack (.single leads)
  have hasLow : node ∈ walk.low.keys := by
    rw [segmented.lows]
    exact segmented.opened node (segmented.node_mem_stack List.mem_cons_self)
  have above : (walk.lower node (walk.indexOf target)).Above
      ((walk.lower node (walk.indexOf target)).lowOf node) target := by
    rw [Walk.lowOf_lower_self hasLow]
    exact ⟨known, fun _ => Nat.min_le_right _ _⟩
  have read := (lowered.sound _ List.mem_cons_self).readTarget rfl above
  exact ⟨⟨node, rest, members⟩ :: below, rfl,
    @Segmented.replace _ _ _ [] _ _ lowered rfl rfl read, recorded.congr rfl fun _ => .rfl⟩

theorem pass (underway : Underway graph (⟨node, target :: rest⟩ :: visits) walk)
    (done : walk.Done target) : Underway graph (⟨node, rest⟩ :: visits) walk := by
  obtain ⟨members, below, rfl, segmented, recorded⟩ := underway.exists_top
  have read := (segmented.sound _ List.mem_cons_self).readTarget rfl
    ⟨done.1, fun member => absurd member done.2⟩
  exact ⟨⟨node, rest, members⟩ :: below, rfl,
    @Segmented.replace _ _ _ [] _ _ segmented rfl rfl read, recorded⟩

/-- Leaving a node never fails. -/
theorem exists_leave (underway : Underway graph (⟨node, []⟩ :: visits) walk) :
    ∃ next, walk.leave graph node (visits.head?.map Visit.node) = .ok next ∧
      Underway graph visits next := by
  obtain ⟨members, below, rfl, segmented, recorded⟩ := underway.exists_top
  cases below with
  | nil =>
      have isRoot : walk.lowOf node = walk.indexOf node := segmented.low_of_lowest
      obtain ⟨next, closed, segmentedNext, recordedNext⟩ :=
        exists_close segmented recorded rfl isRoot
      refine ⟨next, ?_, [], rfl, segmentedNext, recordedNext⟩
      simpa [Walk.leave, Walk.lowerParent, isRoot] using closed
  | cons parent below =>
      have linked := segmented.linked
      rw [List.map_cons, List.map_cons, List.isChain_cons_cons] at linked
      have different : node ≠ parent.node := by
        have distinct := segmented.nodup
        rw [segmented.stack, List.flatMap_cons, List.flatMap_cons, List.nodup_append] at distinct
        exact distinct.2.2 _ (by simp [Segment.nodes]) _ (by simp [Segment.nodes])
      have hasLow : parent.node ∈ walk.low.keys := by
        rw [segmented.lows]
        exact segmented.opened _ (segmented.node_mem_stack (by simp))
      obtain ⟨reached, onStack, isLow, way⟩ :=
        (segmented.sound _ List.mem_cons_self).low_reached
      have lowered := segmented.lower onStack (way.head linked.1)
      rw [isLow] at lowered
      have record : Recorded graph (walk.lower parent.node (walk.lowOf node)) :=
        recorded.congr rfl fun _ => .rfl
      have low : (walk.lower parent.node (walk.lowOf node)).lowOf node = walk.lowOf node :=
        Walk.lowOf_lower_of_ne different
      have parentLow : (walk.lower parent.node (walk.lowOf node)).lowOf parent.node ≤
          walk.lowOf node := by
        rw [Walk.lowOf_lower_self hasLow]
        exact Nat.min_le_right _ _
      simp only [List.map_cons, List.head?_cons, Option.map_some, Segment.visit, Walk.leave,
        Walk.lowerParent]
      split
      · next isRoot =>
          obtain ⟨next, closed, segmentedNext, recordedNext⟩ :=
            exists_close lowered record rfl isRoot
          exact ⟨next, closed, parent :: below, rfl, segmentedNext, recordedNext⟩
      · next stays =>
          have joined := lowered.join rfl (parentLow.trans low.ge) stays
          exact ⟨_, rfl, _, rfl, joined, record⟩

/-- A step goes on as long as a node is being walked. -/
theorem step (underway : Underway graph visits walk) {result : Step}
    (move : Move graph visits walk result) :
    (visits = [] ∧ result = .halt (.ok walk)) ∨
      ∃ after next, result = .go after next ∧ Underway graph after next ∧
        ∀ node, walk.Opened node → next.Opened node := by
  cases move with
  | ended => exact .inl ⟨rfl, rfl⟩
  | left node below walk next ok =>
      obtain ⟨other, left, underwayNext⟩ := underway.exists_leave
      cases ok.symm.trans left
      refine .inr ⟨below, next, rfl, underwayNext, fun node opened => ?_⟩
      rwa [Walk.Opened, index_leave ok]
  | failed node below walk error refused =>
      obtain ⟨other, left, -⟩ := underway.exists_leave
      cases refused.symm.trans left
  | opened node target rest below walk fresh =>
      exact .inr ⟨_, _, rfl, underway.openTarget fresh, fun node opened =>
        Walk.opened_openNode_iff.mpr (.inr opened)⟩
  | lowered node target rest below walk known onStack =>
      exact .inr ⟨_, _, rfl, underway.lowerTo known onStack, fun _ opened => opened⟩
  | passed node target rest below walk done =>
      exact .inr ⟨_, _, rfl, underway.pass done, fun _ opened => opened⟩

/-- A run ends well, with no node left on the way. -/
theorem exists_run (underway : Underway graph visits walk) :
    ∃ final, run graph visits walk = .ok final ∧ Underway graph [] final ∧
      ∀ node, walk.Opened node → final.Opened node := by
  induction visits, walk using run.induct graph with
  | case1 visits walk result halted =>
      have move := @step_spec graph visits walk
      rw [halted] at move
      rcases underway.step move with ⟨rfl, isOver⟩ | ⟨after, next, goes, -⟩
      · cases isOver
        refine ⟨walk, ?_, underway, fun _ opened => opened⟩
        rw [run]
        rfl
      · cases goes
  | case2 visits walk after next moved induction =>
      have move := @step_spec graph visits walk
      rw [moved] at move
      rcases underway.step move with ⟨-, isOver⟩ | ⟨_, _, goes, underwayNext, grows⟩
      · cases isOver
      · cases goes
        obtain ⟨final, ran, rests, further⟩ := induction underwayNext
        refine ⟨final, ?_, rests, fun node opened => further node (grows node opened)⟩
        rw [run]
        split
        · next halted => cases moved.symm.trans halted
        · next movedAgain =>
            cases moved.symm.trans movedAgain
            exact ran

theorem exists_walkFrom (underway : Underway graph [] walk) (node : String) :
    ∃ final, walkFrom graph walk node = .ok final ∧ Underway graph [] final ∧ final.Opened node ∧
      ∀ other, walk.Opened other → final.Opened other := by
  unfold walkFrom
  split
  · next opened =>
      exact ⟨walk, rfl, underway, (KeyMap.contains_iff _ _).mp opened, fun _ opened => opened⟩
  · next unopened =>
      have fresh : ¬ walk.Opened node := fun opened =>
        unopened ((KeyMap.contains_iff _ _).mpr opened)
      obtain ⟨final, ran, rests, grows⟩ := (underway.openFirst fresh).exists_run
      refine ⟨final, ran, rests, grows node (Walk.opened_openNode_iff.mpr (.inl rfl)), ?_⟩
      intro other opened
      exact grows other (Walk.opened_openNode_iff.mpr (.inr opened))

theorem exists_walkAll (underway : Underway graph [] walk) (nodes : List String) :
    ∃ final, walkAll graph walk nodes = .ok final ∧ Underway graph [] final ∧
      (∀ node ∈ nodes, final.Opened node) ∧ ∀ node, walk.Opened node → final.Opened node := by
  induction nodes generalizing walk with
  | nil => exact ⟨walk, rfl, underway, nofun, fun _ opened => opened⟩
  | cons first nodes induction =>
      obtain ⟨next, walked, underwayNext, opensFirst, grows⟩ := underway.exists_walkFrom first
      obtain ⟨final, walkedAll, rests, opens, further⟩ := induction underwayNext
      refine ⟨final, by simp only [walkAll, walked, walkedAll], rests, fun node member => ?_,
        fun node opened => further node (grows node opened)⟩
      rcases List.mem_cons.mp member with rfl | later
      · exact further node opensFirst
      · exact opens node later

end Underway

end Components

namespace Digraph

variable {graph : Digraph}

theorem mem_keys_of_leads {node target : String} (leads : graph.Leads node target) :
    node ∈ graph.targets.keys := by
  rw [KeyMap.mem_keys_iff]
  unfold Leads targetsOf at leads
  cases found : graph.targets.get? node with
  | none => simp [found] at leads
  | some targets => exact ⟨targets, rfl⟩

/-- The search ends well, with all components that hold a cycle. -/
theorem exists_found (graph : Digraph) :
    ∃ found, graph.findComponents = .ok found ∧
      (∀ component ∈ found, graph.IsCyclicComponent component) ∧
      (∀ node, TransGen graph.Leads node node → ∃ component ∈ found, node ∈ component) ∧
      found.Pairwise List.Disjoint := by
  obtain ⟨final, walked, ⟨segments, shape, segmented, recorded⟩, opens, -⟩ :=
    (@Components.underway_empty graph).exists_walkAll graph.targets.keys
  cases List.map_eq_nil_iff.mp shape.symm
  refine ⟨final.found, by simp only [findComponents, walked],
    fun component listed => (recorded.sound component listed).1, fun node cycle => ?_,
    recorded.apart⟩
  obtain ⟨second, leads, -⟩ := TransGen.head'_iff.mp cycle
  refine recorded.complete node ⟨opens node (mem_keys_of_leads leads), ?_⟩ cycle
  rw [segmented.empty_stack]
  exact List.not_mem_nil

/-- The search for components never fails.  What it returns are cyclic components, and every cyclic
component is returned exactly once. -/
theorem cyclicComponents_exact (graph : Digraph) :
    graph.findComponents = .ok graph.cyclicComponents ∧
      (∀ component ∈ graph.cyclicComponents, graph.IsCyclicComponent component) ∧
      ∀ nodes, graph.IsCyclicComponent nodes →
        graph.cyclicComponents.countP (·.isPerm nodes) = 1 := by
  obtain ⟨found, answer, sound, complete, apart⟩ := graph.exists_found
  have result : graph.cyclicComponents = found := by simp only [cyclicComponents, answer]
  rw [result]
  refine ⟨answer, sound, fun nodes component => ?_⟩
  obtain ⟨node, member⟩ := component.exists_mem
  obtain ⟨same, listed, shared⟩ := complete node (component.cycle member)
  obtain ⟨before, after, rfl⟩ := List.append_of_mem listed
  rw [List.pairwise_append, List.pairwise_cons] at apart
  obtain ⟨-, ⟨apartAfter, -⟩, apartBefore⟩ := apart
  -- any other component with these nodes would share a node with this one
  have differs : ∀ other : List String, node ∉ other → ¬ other.isPerm nodes = true := by
    intro other absent perm
    exact absent ((List.isPerm_iff.mp perm).mem_iff.mpr member)
  have noneBefore : before.countP (·.isPerm nodes) = 0 := by
    rw [List.countP_eq_zero]
    intro other earlier
    exact differs other fun inside =>
      apartBefore other earlier same List.mem_cons_self inside shared
  have noneAfter : after.countP (·.isPerm nodes) = 0 := by
    rw [List.countP_eq_zero]
    intro other later
    exact differs other fun inside => apartAfter other later shared inside
  have isSame : same.isPerm nodes = true :=
    List.isPerm_iff.mpr ((sound same listed).perm component shared member)
  simp [List.countP_append, noneBefore, noneAfter, isSame]

end Digraph

end CallGraph
