import CallGraph.Symbol.Record

/-!
# Directions of a search

A search follows calls and references, or it follows the same edges from their targets back.
-/

namespace CallGraph

/-- Which way a search follows the edges. -/
inductive Direction where
  /-- From callers to callees. -/
  | forward
  /-- From callees to callers. -/
  | backward
  deriving DecidableEq, Repr

namespace Direction

/-- The fields a search follows, in the order in which it tries them. -/
def fields : Direction → List EdgeField
  | forward => [.calls, .references]
  | backward => [.calledBy, .referring]

/-- The word for a direction. -/
def label : Direction → String
  | forward => "forward"
  | backward => "backward"

/-- The direction of a word. -/
def ofLabel? (word : String) : Option Direction :=
  [forward, backward].find? fun direction => direction.label == word

end Direction

end CallGraph
