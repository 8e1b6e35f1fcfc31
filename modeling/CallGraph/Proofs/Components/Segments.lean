import CallGraph.Graph.Components
import CallGraph.Proofs.Lookup
import Mathlib.Data.List.Chain
import Mathlib.Logic.Relation

/-!
# The segments of a walk

While components are searched, the stack falls into segments, one for each node that is being
walked: the node itself, below the nodes that were opened since and left again without closing a
component.  Low links bound what a segment leads to, and every node of a segment but its first
reaches a node that was opened earlier.  Each thing a step can do keeps this: opening a node begins
a segment, leaving a node joins its segment to the one below, closing a component drops it.
-/

namespace CallGraph

open Relation

namespace Digraph

/-- An edge leads from a node to a target. -/
def Leads (graph : Digraph) (node target : String) : Prop := target ∈ graph.targetsOf node

/-- A node is reached from another along edges. -/
def Reaches (graph : Digraph) : String → String → Prop := ReflTransGen graph.Leads

end Digraph

namespace Components

namespace Walk

variable {walk : Walk} {node other : String} {bound : Nat}

/-- A node was opened. -/
def Opened (walk : Walk) (node : String) : Prop := node ∈ walk.index.keys

/-- A node was opened and belongs to a component. -/
def Done (walk : Walk) (node : String) : Prop := walk.Opened node ∧ node ∉ walk.stack

/-- A target was opened, and not before a bound if it belongs to no component yet. -/
def Above (walk : Walk) (bound : Nat) (target : String) : Prop :=
  walk.Opened target ∧ (target ∈ walk.stack → bound ≤ walk.indexOf target)

theorem Above.mono {smaller : Nat} {target : String} (above : walk.Above bound target)
    (le : smaller ≤ bound) : walk.Above smaller target :=
  ⟨above.1, fun member => le.trans (above.2 member)⟩

theorem opened_openNode_iff :
    (walk.openNode node).Opened other ↔ other = node ∨ walk.Opened other := by
  unfold Opened
  rw [← KeyMap.contains_iff, contains_openNode, ← KeyMap.contains_iff]
  simp

theorem indexOf_openNode :
    (walk.openNode node).indexOf other =
      if other = node then walk.index.size else walk.indexOf other := by
  simp only [indexOf, openNode, KeyMap.get?_insert]
  split <;> rfl

theorem lowOf_openNode :
    (walk.openNode node).lowOf other =
      if other = node then walk.index.size else walk.lowOf other := by
  simp only [lowOf, openNode, KeyMap.get?_insert]
  split <;> rfl

theorem size_openNode (fresh : ¬ walk.Opened node) :
    (walk.openNode node).index.size = walk.index.size + 1 := by
  have keys := walk.index.keys_insert node walk.index.size
  rw [if_neg (show node ∉ walk.index.keys from fresh)] at keys
  simpa [KeyMap.keys, KeyMap.size, openNode] using congrArg List.length keys

theorem lowOf_lower_self (known : node ∈ walk.low.keys) :
    (walk.lower node bound).lowOf node = min (walk.lowOf node) bound := by
  obtain ⟨low, found⟩ := (walk.low.mem_keys_iff node).mp known
  simp [lowOf, lower, found]

theorem lowOf_lower_of_ne (different : other ≠ node) :
    (walk.lower node bound).lowOf other = walk.lowOf other := by
  simp [lowOf, lower, different]

/-- What a step changes of the opened nodes: their indices stay, none comes back to the stack, and
a node stays on the stack as long as one that was opened later does. -/
structure Extends (walk next : Walk) : Prop where
  opened : ∀ node, walk.Opened node →
    next.Opened node ∧ next.indexOf node = walk.indexOf node
  stays : ∀ node, walk.Opened node → node ∈ next.stack → node ∈ walk.stack
  kept : ∀ lower ∈ walk.stack, ∀ upper ∈ next.stack, walk.Opened upper →
    walk.indexOf lower ≤ walk.indexOf upper → lower ∈ next.stack

theorem Extends.above {next : Walk} {target : String} (extension : walk.Extends next)
    (above : walk.Above bound target) : next.Above bound target := by
  obtain ⟨opened, index⟩ := extension.opened target above.1
  refine ⟨opened, fun member => ?_⟩
  rw [index]
  exact above.2 (extension.stays target above.1 member)

end Walk

/-- A node that is being walked, with the nodes that were opened since and are left again. -/
structure Segment where
  /-- The node. -/
  node : String
  /-- Its targets still to be read. -/
  rest : List String
  /-- The nodes above it on the stack up to the next node that is being walked. -/
  members : List String

namespace Segment

/-- The part of the stack that a segment covers. -/
def nodes (segment : Segment) : List String := segment.members ++ [segment.node]

/-- The visit that a segment belongs to. -/
def visit (segment : Segment) : Visit := ⟨segment.node, segment.rest⟩

/-- What is known of a segment. -/
structure Sound (graph : Digraph) (walk : Walk) (segment : Segment) : Prop where
  /-- The low link is not above the index. -/
  low_le : walk.lowOf segment.node ≤ walk.indexOf segment.node
  /-- The low link is the index of a node of the stack that is reached. -/
  low_reached : ∃ other ∈ walk.stack,
    walk.indexOf other = walk.lowOf segment.node ∧ graph.Reaches segment.node other
  /-- The members are reached. -/
  reaches : ∀ member ∈ segment.members, graph.Reaches segment.node member
  /-- Every member reaches a node of the stack that was opened before it. -/
  climbs : ∀ member ∈ segment.members, ∃ other ∈ walk.stack,
    walk.indexOf other < walk.indexOf member ∧ graph.Reaches member other
  /-- The low link bounds the targets of the members. -/
  bounds : ∀ member ∈ segment.members, ∀ target, graph.Leads member target →
    walk.Above (walk.lowOf segment.node) target
  /-- It bounds the targets of the node that are read. -/
  read : ∀ target, graph.Leads segment.node target →
    target ∈ segment.rest ∨ walk.Above (walk.lowOf segment.node) target
  /-- What is still to be read are targets of the node. -/
  unread : ∀ target ∈ segment.rest, graph.Leads segment.node target

namespace Sound

variable {graph : Digraph} {walk next : Walk} {segment : Segment}

/-- A segment that stays on the stack with its low link stays sound. -/
theorem transfer (sound : segment.Sound graph walk) (extension : walk.Extends next)
    (opened : ∀ node ∈ walk.stack, walk.Opened node)
    (before : ∀ node ∈ segment.nodes, node ∈ walk.stack)
    (after : ∀ node ∈ segment.nodes, node ∈ next.stack)
    (low : next.lowOf segment.node = walk.lowOf segment.node) : segment.Sound graph next := by
  have index : ∀ node ∈ walk.stack, next.indexOf node = walk.indexOf node := fun node member =>
    (extension.opened node (opened node member)).2
  have isNode : segment.node ∈ segment.nodes := by simp [nodes]
  have isMember : ∀ member ∈ segment.members, member ∈ segment.nodes := fun member listed =>
    List.mem_append_left _ listed
  constructor
  case low_le =>
    rw [low, index _ (before _ isNode)]
    exact sound.low_le
  case low_reached =>
    obtain ⟨other, onStack, isLow, reached⟩ := sound.low_reached
    have stays := extension.kept other onStack segment.node (after _ isNode)
      (opened _ (before _ isNode)) (isLow ▸ sound.low_le)
    exact ⟨other, stays, by rw [low, index other onStack, isLow], reached⟩
  case reaches => exact sound.reaches
  case climbs =>
    intro member listed
    obtain ⟨other, onStack, less, reached⟩ := sound.climbs member listed
    have memberBefore := before member (isMember member listed)
    have stays := extension.kept other onStack member (after _ (isMember member listed))
      (opened member memberBefore) less.le
    refine ⟨other, stays, ?_, reached⟩
    rw [index other onStack, index member memberBefore]
    exact less
  case bounds =>
    intro member listed target leads
    rw [low]
    exact extension.above (sound.bounds member listed target leads)
  case read =>
    intro target leads
    rw [low]
    exact (sound.read target leads).imp_right extension.above
  case unread => exact sound.unread

/-- Reading a target that the low link bounds. -/
theorem readTarget {target : String} {rest : List String} (sound : segment.Sound graph walk)
    (reading : segment.rest = target :: rest)
    (above : walk.Above (walk.lowOf segment.node) target) :
    Sound graph walk { segment with rest := rest } := by
  refine ⟨sound.low_le, sound.low_reached, sound.reaches, sound.climbs, sound.bounds,
    fun other leads => ?_, fun other later => sound.unread other (by simp [reading, later])⟩
  rcases sound.read other leads with unread | known
  · rw [reading] at unread
    rcases List.mem_cons.mp unread with rfl | later
    · exact .inr above
    · exact .inl later
  · exact .inr known

/-- A segment stays sound when its low link goes down to the index of a node it reaches. -/
theorem lower {other : String} (sound : segment.Sound graph walk)
    (known : segment.node ∈ walk.low.keys) (onStack : other ∈ walk.stack)
    (reached : graph.Reaches segment.node other) :
    segment.Sound graph (walk.lower segment.node (walk.indexOf other)) := by
  have low : (walk.lower segment.node (walk.indexOf other)).lowOf segment.node =
      min (walk.lowOf segment.node) (walk.indexOf other) := Walk.lowOf_lower_self known
  have le : (walk.lower segment.node (walk.indexOf other)).lowOf segment.node ≤
      walk.lowOf segment.node := by
    rw [low]
    exact Nat.min_le_left _ _
  constructor
  case low_le => exact le.trans sound.low_le
  case low_reached =>
    rw [low]
    rcases Nat.le_total (walk.lowOf segment.node) (walk.indexOf other) with before | after
    · rw [Nat.min_eq_left before]
      exact sound.low_reached
    · rw [Nat.min_eq_right after]
      exact ⟨other, onStack, rfl, reached⟩
  case reaches => exact sound.reaches
  case climbs => exact sound.climbs
  case bounds =>
    intro member listed target leads
    exact Walk.Above.mono (sound.bounds member listed target leads) le
  case read =>
    intro target leads
    exact (sound.read target leads).imp_right fun above => Walk.Above.mono above le
  case unread => exact sound.unread

/-- A node that is left without closing a component joins the segment below. -/
theorem join {parent : Segment} (sound : segment.Sound graph walk)
    (parentSound : parent.Sound graph walk) (finished : segment.rest = [])
    (leads : graph.Leads parent.node segment.node)
    (lowered : walk.lowOf parent.node ≤ walk.lowOf segment.node)
    (stays : walk.lowOf segment.node ≠ walk.indexOf segment.node) :
    Sound graph walk { parent with members := segment.nodes ++ parent.members } := by
  have cases : ∀ member ∈ segment.nodes ++ parent.members,
      member ∈ segment.members ∨ member = segment.node ∨ member ∈ parent.members := by
    simp [nodes]
  constructor
  case low_le => exact parentSound.low_le
  case low_reached => exact parentSound.low_reached
  case reaches =>
    intro member listed
    rcases cases member listed with upper | rfl | lower
    · exact .head leads (sound.reaches member upper)
    · exact .single leads
    · exact parentSound.reaches member lower
  case climbs =>
    intro member listed
    rcases cases member listed with upper | rfl | lower
    · exact sound.climbs member upper
    · obtain ⟨other, onStack, isLow, reached⟩ := sound.low_reached
      have le := sound.low_le
      exact ⟨other, onStack, by omega, reached⟩
    · exact parentSound.climbs member lower
  case bounds =>
    intro member listed target edge
    rcases cases member listed with upper | rfl | lower
    · exact Walk.Above.mono (sound.bounds member upper target edge) lowered
    · have known := sound.read target edge
      rw [finished] at known
      exact Walk.Above.mono (known.resolve_left List.not_mem_nil) lowered
    · exact parentSound.bounds member lower target edge
  case read => exact parentSound.read
  case unread => exact parentSound.unread

end Sound

end Segment

/-- The stack falls into the segments of the nodes that are being walked, last opened first. -/
structure Segmented (graph : Digraph) (segments : List Segment) (walk : Walk) : Prop where
  /-- The segments make up the stack. -/
  stack : walk.stack = segments.flatMap Segment.nodes
  /-- The stack is ordered by the indices. -/
  sorted : walk.stack.Pairwise fun later earlier => walk.indexOf earlier < walk.indexOf later
  /-- The nodes of the stack are opened. -/
  opened : ∀ node ∈ walk.stack, walk.Opened node
  /-- The next index is new. -/
  bounded : ∀ node, walk.Opened node → walk.indexOf node < walk.index.size
  /-- The opened nodes have low links. -/
  lows : walk.low.keys = walk.index.keys
  /-- Every node that is being walked was opened from the one below. -/
  linked : (segments.map Segment.node).IsChain fun upper lower => graph.Leads lower upper
  /-- The segments are sound. -/
  sound : ∀ segment ∈ segments, segment.Sound graph walk
  /-- Nodes of components lead to nodes of components only. -/
  closed : ∀ node, walk.Done node → ∀ target, graph.Leads node target → walk.Done target

namespace Segmented

variable {graph : Digraph} {walk : Walk} {segment parent : Segment}
  {segments above below : List Segment}

theorem mem_stack (segmented : Segmented graph segments walk) (listed : segment ∈ segments) :
    ∀ node ∈ segment.nodes, node ∈ walk.stack := by
  intro node member
  rw [segmented.stack]
  exact List.mem_flatMap.mpr ⟨segment, listed, member⟩

theorem node_mem_stack (segmented : Segmented graph segments walk) (listed : segment ∈ segments) :
    segment.node ∈ walk.stack :=
  segmented.mem_stack listed segment.node (by simp [Segment.nodes])

theorem nodup (segmented : Segmented graph segments walk) : walk.stack.Nodup := by
  refine segmented.sorted.imp ?_
  rintro later earlier less rfl
  exact Nat.lt_irrefl _ less

theorem empty_stack (segmented : Segmented graph [] walk) : walk.stack = [] := segmented.stack

/-- A segment may be replaced by another with the same nodes. -/
theorem replace {other : Segment} (segmented : Segmented graph (above ++ segment :: below) walk)
    (node : other.node = segment.node) (members : other.members = segment.members)
    (sound : other.Sound graph walk) : Segmented graph (above ++ other :: below) walk where
  stack := by
    have nodes : other.nodes = segment.nodes := by rw [Segment.nodes, Segment.nodes, node, members]
    simpa [nodes] using segmented.stack
  sorted := segmented.sorted
  opened := segmented.opened
  bounded := segmented.bounded
  lows := segmented.lows
  linked := by simpa [node] using segmented.linked
  sound entry listed := by
    rcases List.mem_append.mp listed with upper | lower
    · exact segmented.sound entry (List.mem_append_left _ upper)
    · rcases List.mem_cons.mp lower with rfl | further
      · exact sound
      · exact segmented.sound entry (List.mem_append_right _ (List.mem_cons_of_mem _ further))
  closed := segmented.closed

/-- Opening a node begins a segment. -/
theorem openNode {target : String} (segmented : Segmented graph segments walk)
    (fresh : ¬ walk.Opened target)
    (follows : ∀ segment ∈ segments.head?, graph.Leads segment.node target) :
    Segmented graph (⟨target, graph.targetsOf target, []⟩ :: segments) (walk.openNode target) := by
  have different : ∀ node, walk.Opened node → node ≠ target := by
    rintro node opened rfl
    exact fresh opened
  have index : ∀ node, walk.Opened node →
      (walk.openNode target).indexOf node = walk.indexOf node := by
    intro node opened
    rw [Walk.indexOf_openNode, if_neg (different node opened)]
  have newIndex : (walk.openNode target).indexOf target = walk.index.size := by
    rw [Walk.indexOf_openNode, if_pos rfl]
  have newLow : (walk.openNode target).lowOf target = walk.index.size := by
    rw [Walk.lowOf_openNode, if_pos rfl]
  have stack : (walk.openNode target).stack = target :: walk.stack := rfl
  have extension : walk.Extends (walk.openNode target) := by
    refine ⟨fun node opened => ⟨Walk.opened_openNode_iff.mpr (.inr opened), index node opened⟩,
      fun node opened member => ?_, fun lower onStack _ _ _ _ => List.mem_cons_of_mem _ onStack⟩
    exact (List.mem_cons.mp member).resolve_left (different node opened)
  constructor
  case stack => simp [stack, segmented.stack, Segment.nodes]
  case sorted =>
    rw [stack]
    refine .cons (fun node member => ?_) (segmented.sorted.imp_of_mem fun later earlier less => ?_)
    · have opened := segmented.opened node member
      rw [index node opened, newIndex]
      exact segmented.bounded node opened
    · rw [index _ (segmented.opened _ later), index _ (segmented.opened _ earlier)]
      exact less
  case opened =>
    intro node member
    rcases List.mem_cons.mp member with rfl | old
    · exact Walk.opened_openNode_iff.mpr (.inl rfl)
    · exact Walk.opened_openNode_iff.mpr (.inr (segmented.opened node old))
  case bounded =>
    intro node opened
    rw [Walk.size_openNode fresh]
    rcases Walk.opened_openNode_iff.mp opened with rfl | old
    · omega
    · have bound := segmented.bounded node old
      rw [index node old]
      omega
  case lows =>
    simp only [Walk.openNode, KeyMap.keys_insert, segmented.lows]
  case linked =>
    rw [List.map_cons, List.isChain_cons]
    refine ⟨fun node isTop => ?_, segmented.linked⟩
    rw [List.head?_map, Option.mem_def, Option.map_eq_some_iff] at isTop
    obtain ⟨segment, top, rfl⟩ := isTop
    exact follows segment top
  case sound =>
    intro segment listed
    rcases List.mem_cons.mp listed with rfl | old
    · have isLow : (walk.openNode target).indexOf target = (walk.openNode target).lowOf target := by
        rw [newIndex, newLow]
      exact ⟨isLow.ge, ⟨target, List.mem_cons_self, isLow, .refl⟩, by simp, by simp, by simp,
        fun _ leads => .inl leads, fun _ leads => leads⟩
    · have before := segmented.mem_stack old
      have isNode := segmented.node_mem_stack old
      refine (segmented.sound segment old).transfer extension segmented.opened before
        (fun node member => List.mem_cons_of_mem _ (before node member)) ?_
      rw [Walk.lowOf_openNode, if_neg (different _ (segmented.opened _ isNode))]
  case closed =>
    rintro node ⟨opened, offStack⟩ other leads
    rw [stack, List.mem_cons, not_or] at offStack
    have old := (Walk.opened_openNode_iff.mp opened).resolve_left offStack.1
    obtain ⟨otherOpened, otherOff⟩ := segmented.closed node ⟨old, offStack.2⟩ other leads
    refine ⟨Walk.opened_openNode_iff.mpr (.inr otherOpened), ?_⟩
    rw [stack, List.mem_cons, not_or]
    exact ⟨different other otherOpened, otherOff⟩

/-- A low link may go down to the index of a node of the stack that is reached. -/
theorem lower {node other : String} (segmented : Segmented graph segments walk)
    (onStack : other ∈ walk.stack) (reached : graph.Reaches node other) :
    Segmented graph segments (walk.lower node (walk.indexOf other)) where
  stack := segmented.stack
  sorted := segmented.sorted
  opened := segmented.opened
  bounded := segmented.bounded
  lows := by
    rw [Walk.lower, KeyMap.keys_modify]
    exact segmented.lows
  linked := segmented.linked
  sound segment listed := by
    have opened := segmented.opened _ (segmented.node_mem_stack listed)
    rw [Walk.Opened, ← segmented.lows] at opened
    by_cases same : segment.node = node
    · rw [← same] at reached ⊢
      exact (segmented.sound segment listed).lower opened onStack reached
    · have before := segmented.mem_stack listed
      exact (segmented.sound segment listed).transfer
        ⟨fun _ opened => ⟨opened, rfl⟩, fun _ _ member => member, fun _ member _ _ _ _ => member⟩
        segmented.opened before before (Walk.lowOf_lower_of_ne same)
  closed := segmented.closed

/-- Leaving a node without closing a component joins its segment to the one below. -/
theorem join (segmented : Segmented graph (segment :: parent :: below) walk)
    (finished : segment.rest = [])
    (lowered : walk.lowOf parent.node ≤ walk.lowOf segment.node)
    (stays : walk.lowOf segment.node ≠ walk.indexOf segment.node) :
    Segmented graph ({ parent with members := segment.nodes ++ parent.members } :: below) walk where
  stack := by simp [segmented.stack, Segment.nodes]
  sorted := segmented.sorted
  opened := segmented.opened
  bounded := segmented.bounded
  lows := segmented.lows
  linked := by
    have linked := segmented.linked
    rw [List.map_cons, List.map_cons, List.isChain_cons_cons] at linked
    exact linked.2
  sound entry listed := by
    rcases List.mem_cons.mp listed with rfl | lower
    · have linked := segmented.linked
      rw [List.map_cons, List.map_cons, List.isChain_cons_cons] at linked
      exact (segmented.sound segment List.mem_cons_self).join
        (segmented.sound parent (by simp)) finished linked.1 lowered stays
    · exact segmented.sound entry (by simp [lower])
  closed := segmented.closed

/-- The nodes of the topmost segment have larger indices than the other nodes of the stack. -/
theorem lt_of_top (segmented : Segmented graph (segment :: below) walk) :
    ∀ upper ∈ segment.nodes, ∀ lower ∈ below.flatMap Segment.nodes,
      walk.indexOf lower < walk.indexOf upper := by
  have sorted := segmented.sorted
  rw [segmented.stack, List.flatMap_cons, List.pairwise_append] at sorted
  exact sorted.2.2

/-- Among the nodes of a segment its first has the least index. -/
theorem le_of_top (segmented : Segmented graph (segment :: below) walk) :
    ∀ node ∈ segment.nodes, walk.indexOf segment.node ≤ walk.indexOf node := by
  have sorted := segmented.sorted
  rw [segmented.stack, List.flatMap_cons, List.pairwise_append, Segment.nodes,
    List.pairwise_append] at sorted
  intro node member
  rcases List.mem_append.mp member with listed | isNode
  · exact (sorted.1.2.2 node listed segment.node List.mem_cons_self).le
  · rw [List.mem_singleton.mp isNode]

/-- The lowest segment closes a component when its node is left. -/
theorem low_of_lowest (segmented : Segmented graph [segment] walk) :
    walk.lowOf segment.node = walk.indexOf segment.node := by
  have sound := segmented.sound segment List.mem_cons_self
  obtain ⟨other, onStack, isLow, -⟩ := sound.low_reached
  rw [segmented.stack] at onStack
  have least := segmented.le_of_top other (by simpa using onStack)
  have le := sound.low_le
  omega

/-- What a finished segment leads to when its low link is its index: nodes of the segment and of
components. -/
theorem done_or_mem (segmented : Segmented graph (segment :: below) walk)
    (finished : segment.rest = []) (isRoot : walk.lowOf segment.node = walk.indexOf segment.node)
    {node target : String} (member : node ∈ segment.nodes) (leads : graph.Leads node target) :
    target ∈ segment.nodes ∨ walk.Done target := by
  have sound := segmented.sound segment List.mem_cons_self
  have bounded : walk.Above (walk.lowOf segment.node) target := by
    rcases List.mem_append.mp member with listed | isNode
    · exact sound.bounds node listed target leads
    · rw [List.mem_singleton.mp isNode] at leads
      have known := sound.read target leads
      rw [finished] at known
      exact known.resolve_left List.not_mem_nil
  by_cases onStack : target ∈ walk.stack
  · have least := bounded.2 onStack
    rw [segmented.stack, List.flatMap_cons] at onStack
    rcases List.mem_append.mp onStack with upper | lower
    · exact .inl upper
    · have less := segmented.lt_of_top segment.node (by simp [Segment.nodes]) target lower
      omega
  · exact .inr ⟨bounded.1, onStack⟩

/-- Closing a component drops the topmost segment. -/
theorem drop {next : Walk} (segmented : Segmented graph (segment :: below) walk)
    (finished : segment.rest = []) (isRoot : walk.lowOf segment.node = walk.indexOf segment.node)
    (index : next.index = walk.index) (low : next.low = walk.low)
    (stack : next.stack = below.flatMap Segment.nodes) : Segmented graph below next := by
  have whole : walk.stack = segment.nodes ++ next.stack := by
    rw [segmented.stack, stack, List.flatMap_cons]
  have opened : ∀ node, next.Opened node ↔ walk.Opened node := by
    intro node
    rw [Walk.Opened, Walk.Opened, index]
  have indexOf : ∀ node, next.indexOf node = walk.indexOf node := by
    intro node
    rw [Walk.indexOf, Walk.indexOf, index]
  have before : ∀ node ∈ next.stack, node ∈ walk.stack := by
    intro node member
    rw [whole]
    exact List.mem_append_right _ member
  have extension : walk.Extends next := by
    refine ⟨fun node isOpened => ⟨(opened node).mpr isOpened, indexOf node⟩,
      fun node _ member => before node member, fun lower onStack upper isUpper _ le => ?_⟩
    rw [whole] at onStack
    rcases List.mem_append.mp onStack with dropped | kept
    · have less := segmented.lt_of_top lower dropped upper (stack ▸ isUpper)
      omega
    · exact kept
  constructor
  case stack => exact stack
  case sorted =>
    have sorted := segmented.sorted
    rw [whole, List.pairwise_append] at sorted
    simpa only [indexOf] using sorted.2.1
  case opened =>
    intro node member
    exact (opened node).mpr (segmented.opened node (before node member))
  case bounded =>
    intro node isOpened
    rw [indexOf, index]
    exact segmented.bounded node ((opened node).mp isOpened)
  case lows =>
    rw [low, index]
    exact segmented.lows
  case linked =>
    have linked := segmented.linked
    rw [List.map_cons, List.isChain_cons] at linked
    exact linked.2
  case sound =>
    intro entry listed
    have after : ∀ node ∈ entry.nodes, node ∈ next.stack := by
      intro node member
      rw [stack]
      exact List.mem_flatMap.mpr ⟨entry, listed, member⟩
    exact (segmented.sound entry (List.mem_cons_of_mem _ listed)).transfer extension
      segmented.opened (fun node member => before node (after node member)) after
      (by rw [Walk.lowOf, Walk.lowOf, low])
  case closed =>
    rintro node ⟨isOpened, offStack⟩ target leads
    have doneBefore : ∀ other, walk.Done other → next.Done other := fun other done =>
      ⟨(opened other).mpr done.1, fun member => done.2 (before other member)⟩
    by_cases onStack : node ∈ walk.stack
    · have member : node ∈ segment.nodes := by
        rw [whole] at onStack
        exact (List.mem_append.mp onStack).resolve_right offStack
      rcases segmented.done_or_mem finished isRoot member leads with inside | done
      · refine ⟨(opened target).mpr (segmented.opened target ?_), fun kept => ?_⟩
        · exact segmented.mem_stack List.mem_cons_self target inside
        · exact Nat.lt_irrefl _ (segmented.lt_of_top target inside target (stack ▸ kept))
      · exact doneBefore target done
    · exact doneBefore target
        (segmented.closed node ⟨(opened node).mp isOpened, onStack⟩ target leads)

end Segmented

end Components

end CallGraph
