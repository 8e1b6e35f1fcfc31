import CallGraph.Graph.Components

/-!
# Summaries

Counts over a table, the fan-in and the fan-out of every function, the cyclic components over
calls and references, and the functions that are called most.  A summary depends on what the table
holds and not on the order in which it came.
-/

namespace CallGraph

/-- What is said of a whole table. -/
structure Summary where
  /-- The number of records. -/
  symbolCount : Nat
  /-- The number of functions. -/
  functionCount : Nat
  /-- The number of variables. -/
  variableCount : Nat
  /-- The number of public symbols. -/
  publicCount : Nat
  /-- The number of symbols that are not public. -/
  privateCount : Nat
  /-- The number of calls. -/
  callEdgeCount : Nat
  /-- The number of references. -/
  referenceEdgeCount : Nat
  /-- The cyclic components, in increasing order. -/
  cycles : List (List Key)
  /-- How often every called function is called, in increasing order of the keys. -/
  fanIn : List (Key × Nat)
  /-- How many calls every calling function makes, in increasing order of the keys. -/
  fanOut : List (Key × Nat)
  /-- The functions that are called most, most often called first. -/
  topFunctions : List Key
  deriving DecidableEq, Repr

/-- The order of pairs by their first, then by their second member. -/
def pairLe (left right : Key × Key) : Bool :=
  decide (left.1 < right.1) || (left.1 == right.1 && decide (left.2 ≤ right.2))

/-- The lexicographic order of lists of texts. -/
def textsLe : List String → List String → Bool
  | [], _ => true
  | _ :: _, [] => false
  | left :: lefts, right :: rights =>
      decide (left < right) || (left == right && textsLe lefts rights)

/-- How often each text occurs, in the order of first occurrences. -/
def tally (texts : List String) : KeyMap Nat :=
  texts.foldl (fun counts text => counts.insert text ((counts.get? text).getD 0 + 1)) ∅

/-- How often each node is the target, and how often the source, of an edge. -/
def fanStats (edges : List (Key × Key)) : KeyMap Nat × KeyMap Nat :=
  (tally (edges.map Prod.snd), tally (edges.map Prod.fst))

/-- Counts in increasing order of their keys. -/
def sortedCounts (counts : KeyMap Nat) : List (Key × Nat) :=
  counts.entries.mergeSort fun left right => decide (left.1 ≤ right.1)

/-- The members before a position, which counts from the end if it is negative. -/
def takeUpTo {α : Type} (position : Int) (items : List α) : List α :=
  if position < 0 then items.take (items.length - position.natAbs) else items.take position.toNat

namespace Table

/-- The calls as pairs of caller and callee, in increasing order. -/
def callEdges (table : Table) : List (Key × Key) :=
  (table.entries.flatMap fun entry => entry.2.calls.map fun callee => (entry.1, callee)).mergeSort
    pairLe

/-- Whether a key is that of a function. -/
def isFunction (table : Table) (key : Key) : Bool :=
  (table.get? key).any fun record => record.kind == some .function

/-- The number of records that a test accepts. -/
def count (table : Table) (test : Record → Bool) : Nat :=
  table.entries.countP fun entry => test entry.2

/-- The called functions, most often called first, equals in increasing order of their keys. -/
def functionsByFanIn (table : Table) (fanIn : KeyMap Nat) : List Key :=
  ((fanIn.entries.filter fun entry => table.isFunction entry.1).mergeSort fun left right =>
    decide (right.2 < left.2) || (left.2 == right.2 && decide (left.1 ≤ right.1))).map Prod.fst

/-- The number of most called functions that a summary names unless told otherwise. -/
def defaultTop : Int := 10

/-- Summarise a table, naming the given number of most called functions. -/
def summary (table : Table) (top : Int := defaultTop) : Summary :=
  let edges := table.callEdges
  let (fanIn, fanOut) := fanStats edges
  let components := table.forwardGraph.cyclicComponents.map fun component =>
    component.mergeSort fun left right => decide (left ≤ right)
  { symbolCount := table.size
    functionCount := table.count fun record => record.kind == some .function
    variableCount := table.count fun record => record.kind == some .object
    publicCount := table.count fun record => record.visibility == some .exported
    privateCount := table.count fun record => record.visibility != some .exported
    callEdgeCount := edges.length
    referenceEdgeCount := (table.entries.flatMap fun entry => entry.2.references).length
    cycles := components.mergeSort textsLe
    fanIn := sortedCounts fanIn
    fanOut := sortedCounts fanOut
    topFunctions := takeUpTo top (table.functionsByFanIn fanIn) }

end Table

end CallGraph
