import CallGraph.Graph.Search
import CallGraph.Pattern.Basic

/-!
# Queries by patterns

A query names the functions to start from, and those to end at, by patterns for their names.  The
start is read first, then the end, then the ignore list; the first pattern that is refused counts.
-/

namespace CallGraph.Query

/-- Ask for a path between functions named by patterns, or for a cycle if there is no end. -/
def ofPatterns (direction : Direction) (start : String) (finish : Option String)
    (ignore : List String) : Except PatternError Query := do
  let startPattern ← Pattern.compile start
  let goal ←
    match finish with
    | some finish => do
        let finishPattern ← Pattern.compile finish
        pure (Goal.function finishPattern.occursIn)
    | none => pure Goal.revisit
  let patterns ← Pattern.compileAll ignore
  return {
    start := startPattern.occursIn
    goal
    direction
    ignore
    ignoresName := Pattern.matchesAny patterns }

/-- What a search by patterns reports before it begins. -/
def openingEvent (direction : Direction) (start : String) (finish : Option String) : Event :=
  match finish with
  | some finish => .pathSought direction start finish
  | none => .cycleSought direction start

end CallGraph.Query
