import CallGraph.Graph.Direction
import CallGraph.Journal
import CallGraph.Table.Basic

/-!
# Searching for paths and cycles

Both searches go depth first from the functions that may start them.  `Trail.found` is the path to
the current key; a key is dead once nothing was found from it, and no dead key is entered again,
neither from a sibling nor from a later start.  Ignored keys are dead from the beginning, except
that a start is searched from even if it is ignored.

A path search ends at the first function it accepts.  A cycle search ends when it comes back to a
key of the current path.  Every step either enters a key for the first time or reads one more
neighbour, so a search ends on every table.
-/

namespace CallGraph

/-- Why a search cannot go on. -/
inductive SearchError where
  /-- The key has no record. -/
  | absent (key : Key)
  /-- An edge leads to no record. -/
  | unresolved (source target : Key) (field : EdgeField)
  deriving DecidableEq, Repr

namespace SearchError

open Text in
/-- What is said of a search that cannot go on. -/
def message : SearchError → String
  | absent key => key
  | unresolved source target field =>
      s!"Edge {quote source} -> {quote target} in field {quote field.label} " ++
        "does not resolve to any symbol"

end SearchError

/-- The edges of a record in a direction, with the fields that hold them. -/
def Record.links (record : Record) (direction : Direction) : List (EdgeField × Key) :=
  direction.fields.flatMap fun field => (record.edges field).map fun key => (field, key)

/-- Whether a record is a function with an accepted name. -/
def Record.isFunctionNamed (record : Record) (accepts : String → Bool) : Bool :=
  record.kind == some .function && accepts record.name

namespace Table

/-- The neighbours of a key in a direction, in stored order. -/
def neighbours (table : Table) (direction : Direction) (key : Key) :
    Except SearchError (List Key) :=
  match table.get? key with
  | none => .error (.absent key)
  | some record =>
      match (record.links direction).find? fun link => !table.contains link.2 with
      | some (field, target) => .error (.unresolved key target field)
      | none => .ok ((record.links direction).map Prod.snd)

end Table

/-- What a search looks for. -/
inductive Goal where
  /-- A function with an accepted name. -/
  | function (accepts : String → Bool)
  /-- A key of the current path. -/
  | revisit

/-- What is asked of a table. -/
structure Query where
  /-- Accepts the names of the functions to start from. -/
  start : String → Bool
  /-- What is looked for. -/
  goal : Goal
  /-- Which way the edges are followed. -/
  direction : Direction := .forward
  /-- The ignore list as it was given; it may name keys. -/
  ignore : List String := []
  /-- Accepts the names that the ignore list matches as patterns. -/
  ignoresName : String → Bool := fun _ => false

namespace Query

/-- Whether a symbol is ignored, by its key or by its name. -/
def ignores (query : Query) (key : Key) (record : Record) : Bool :=
  query.ignore.contains key || query.ignoresName record.name

/-- Whether a key ends a search for a function. -/
def isMet (query : Query) (table : Table) (key : Key) : Bool :=
  match query.goal with
  | .function accepts => (table.get? key).any fun record => record.isFunctionNamed accepts
  | .revisit => false

/-- Whether coming back to the current path ends the search. -/
def endsOnRevisit (query : Query) : Bool :=
  match query.goal with
  | .function _ => false
  | .revisit => true

/-- The keys to start from, in table order. -/
def candidates (query : Query) (table : Table) : List Key :=
  (table.entries.filter fun entry => entry.2.isFunctionNamed query.start).map Prod.fst

/-- The ignored keys, in table order. -/
def ignoredKeys (query : Query) (table : Table) : List Key :=
  (table.entries.filter fun entry => query.ignores entry.1 entry.2).map Prod.fst

end Query

/-- Where a search stands. -/
structure Trail where
  /-- The current path, start first. -/
  found : List Key := []
  /-- The keys of the current path. -/
  onPath : List Key := []
  /-- The keys that are not entered any more. -/
  dead : List Key := []
  /-- What was reported so far, oldest first. -/
  journal : List Event := []

/-- A key of the current path with its neighbours still to be tried. -/
structure Frame where
  /-- The key. -/
  key : Key
  /-- The neighbours still to be tried. -/
  rest : List Key

/-- How a search ends. -/
inductive Outcome where
  /-- The trail leads to what was looked for. -/
  | success
  /-- Nothing is left to try. -/
  | exhausted
  /-- The search cannot go on. -/
  | broken (error : SearchError)

/-- What a step of a search leads to. -/
inductive Step where
  /-- The search is over. -/
  | halt (trail : Trail) (outcome : Outcome)
  /-- The search goes on. -/
  | go (stack : List Frame) (trail : Trail)

namespace Trail

/-- Enter a key. -/
def push (trail : Trail) (key : Key) : Trail :=
  { trail with found := trail.found ++ [key], onPath := key :: trail.onPath }

/-- End the path with a key that is on it. -/
def close (trail : Trail) (key : Key) : Trail :=
  { trail with found := trail.found ++ [key] }

/-- Leave the last key of the path, from which nothing was found. -/
def retire (trail : Trail) : Trail :=
  match trail.found.getLast? with
  | none => trail
  | some key =>
      { found := trail.found.dropLast
        onPath := trail.onPath.filter (· != key)
        dead := key :: trail.dead
        journal := trail.journal ++ [.deadEnd key] }

/-- Search from a key although it is ignored. -/
def readmit (trail : Trail) (ignore : List String) (key : Key) : Trail :=
  { trail with
    dead := trail.dead.filter (· != key)
    journal := trail.journal ++ [.ignoredStart ignore key] }

/-- Forget the path but not the dead keys. -/
def restart (trail : Trail) : Trail :=
  { trail with found := [], onPath := [] }

/-- The keys of a table that were never entered and are not ignored. -/
def fresh (trail : Trail) (table : Table) : List Key :=
  table.keys.filter fun key => !trail.dead.contains key && !trail.onPath.contains key

theorem length_fresh_retire_le (trail : Trail) (table : Table) :
    (trail.retire.fresh table).length ≤ (trail.fresh table).length := by
  unfold retire
  split
  · exact Nat.le_refl _
  · simp only [fresh, ← List.countP_eq_length_filter]
    apply List.countP_mono_left
    intro key _
    simp only [Bool.and_eq_true, Bool.not_eq_true', List.contains_eq_mem, decide_eq_false_iff_not,
      List.mem_filter, not_and, bne_iff_ne, Classical.not_not, and_imp]
    intro alive absent
    exact ⟨fun member => alive (List.mem_cons_of_mem _ member),
      fun member => alive (absent member ▸ List.mem_cons_self)⟩

theorem length_fresh_push_lt (trail : Trail) (table : Table) (key : Key)
    (present : key ∈ table.keys) (alive : trail.dead.contains key = false)
    (new : trail.onPath.contains key = false) :
    ((trail.push key).fresh table).length < (trail.fresh table).length := by
  have smaller : (trail.push key).fresh table =
      (trail.fresh table).filter fun other => other != key := by
    simp only [fresh, push, List.filter_filter]
    apply List.filter_congr
    intro other _
    by_cases same : other = key <;> simp [same]
  rw [smaller, List.length_filter_lt_length_iff_exists]
  refine ⟨key, ?_, by simp⟩
  simp only [fresh, List.mem_filter, alive, new]
  exact ⟨present, rfl⟩

end Trail

namespace Search

/-- The keys of the stack and the neighbours still to be tried. -/
def work : List Frame → Nat
  | [] => 0
  | frame :: stack => frame.rest.length + 1 + work stack

/-- Try a neighbour. -/
def visit (table : Table) (query : Query) (stack : List Frame) (trail : Trail) (next : Key) :
    Step :=
  if trail.dead.contains next then .go stack trail
  else if trail.onPath.contains next then
    if query.endsOnRevisit then .halt (trail.close next) .success else .go stack trail
  else if query.isMet table next then .halt (trail.push next) .success
  else
    match table.neighbours query.direction next with
    | .error error => .halt (trail.push next) (.broken error)
    | .ok keys => .go (⟨next, keys⟩ :: stack) (trail.push next)

/-- One step: leave a key whose neighbours are all tried, or try the next neighbour. -/
def step (table : Table) (query : Query) (stack : List Frame) (trail : Trail) : Step :=
  match stack with
  | [] => .halt trail .exhausted
  | ⟨_, []⟩ :: below => .go below trail.retire
  | ⟨key, next :: rest⟩ :: below => visit table query (⟨key, rest⟩ :: below) trail next

theorem mem_keys_of_neighbours {table : Table} {direction : Direction} {key : Key}
    {keys : List Key} (found : table.neighbours direction key = .ok keys) : key ∈ table.keys := by
  unfold Table.neighbours at found
  split at found
  · cases found
  · next record present => exact table.records.mem_keys_of_get? present

theorem step_decreases (table : Table) (query : Query) (stack after : List Frame)
    (trail next : Trail) (moved : step table query stack trail = .go after next) :
    Prod.Lex (· < ·) (· < ·) ((next.fresh table).length, work after)
      ((trail.fresh table).length, work stack) := by
  unfold step at moved
  split at moved
  · cases moved
  · cases moved
    exact Prod.Lex.right' _ (trail.length_fresh_retire_le table) (by simp [work])
  · unfold visit at moved
    split at moved
    · cases moved
      exact Prod.Lex.right _ (by simp [work])
    · split at moved
      · split at moved
        · cases moved
        · cases moved
          exact Prod.Lex.right _ (by simp [work])
      · split at moved
        · cases moved
        · split at moved
          · cases moved
          · next alive new _ _ _ found =>
              cases moved
              exact Prod.Lex.left _ _
                (trail.length_fresh_push_lt table _ (mem_keys_of_neighbours found)
                  (by simpa using alive) (by simpa using new))

/-- Steps until the search is over. -/
def run (table : Table) (query : Query) (stack : List Frame) (trail : Trail) : Trail × Outcome :=
  match _moved : step table query stack trail with
  | .halt final outcome => (final, outcome)
  | .go after next => run table query after next
termination_by ((trail.fresh table).length, work stack)
decreasing_by exact step_decreases table query stack after trail next _moved

/-- Search from one key. -/
def traverse (table : Table) (query : Query) (start : Key) (trail : Trail) : Trail × Outcome :=
  match visit table query [] trail start with
  | .halt final outcome => (final, outcome)
  | .go stack next => run table query stack next

/-- Search from each of the given keys until one succeeds. -/
def fromCandidates (table : Table) (query : Query) : List Key → Trail → Trail × Outcome
  | [], trail => (trail, .exhausted)
  | key :: keys, trail =>
      let trail :=
        if (query.ignoredKeys table).contains key then trail.readmit query.ignore key else trail
      match traverse table query key trail with
      | (trail, .exhausted) => fromCandidates table query keys trail.restart
      | (trail, outcome) => (trail, outcome)

end Search

/-- The answer to a query, with what the search reported. -/
structure Answer where
  /-- The keys found, none if nothing was found. -/
  keys : Except SearchError (List Key)
  /-- What was reported, oldest first. -/
  journal : List Event

/-- Search a table. -/
def Table.search (table : Table) (query : Query) : Answer :=
  let trail : Trail := { dead := query.ignoredKeys table }
  match Search.fromCandidates table query (query.candidates table) trail with
  | (trail, .success) => ⟨.ok trail.found, trail.journal⟩
  | (trail, .exhausted) => ⟨.ok [], trail.journal⟩
  | (trail, .broken error) => ⟨.error error, trail.journal⟩

end CallGraph
