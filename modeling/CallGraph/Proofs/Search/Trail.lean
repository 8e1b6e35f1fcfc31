import CallGraph.Graph.Search
import CallGraph.Proofs.Lookup
import Mathlib.Data.List.Chain

/-!
# The trail of a search

`Visit` and `Advance` list what trying a key and what one step of a search can do; everything about
searches is proved by cases on them.  `run_invariant` carries what every step preserves to the end
of a run.  The path of a trail is that of the stack, never repeats a key, never meets a dead one,
follows the edges of the direction from the start of the search, and passes no ignored key but
possibly its start.
-/

namespace CallGraph

/-! ## Neighbours -/

namespace Table

/-- An edge of the direction leads from one key to another. -/
def Leads (table : Table) (direction : Direction) (key next : Key) : Prop :=
  ∃ field ∈ direction.fields, next ∈ table.edgesOf key field

/-- Every edge of the direction leads to a record. -/
def ClosedUnder (table : Table) (direction : Direction) : Prop :=
  ∀ key next, table.Leads direction key next → table.contains next = true

instance (table : Table) (direction : Direction) (key next : Key) :
    Decidable (table.Leads direction key next) :=
  inferInstanceAs (Decidable (∃ field ∈ direction.fields, next ∈ table.edgesOf key field))

variable {table : Table} {direction : Direction} {key : Key}

theorem mem_links_iff {record : Record} (found : table.get? key = some record) {next : Key} :
    next ∈ (record.links direction).map Prod.snd ↔ table.Leads direction key next := by
  simp only [Record.links, List.map_flatMap, List.map_map, List.mem_flatMap, List.mem_map,
    Function.comp_apply, exists_eq_right, Leads, edgesOf_eq found]

theorem closedUnder_iff :
    table.ClosedUnder direction ↔
      ∀ entry ∈ table.entries, ∀ next ∈ (entry.2.links direction).map Prod.snd,
        table.contains next = true := by
  constructor
  · rintro closed ⟨key, record⟩ member next linked
    exact closed key next ((mem_links_iff ((table.mem_entries_iff key record).mp member)).mp linked)
  · rintro closed key next ⟨field, followed, edge⟩
    obtain ⟨record, found, -⟩ := mem_edgesOf_iff.mp edge
    exact closed (key, record) ((table.mem_entries_iff key record).mpr found) next
      ((mem_links_iff found).mpr ⟨field, followed, edge⟩)

instance (table : Table) (direction : Direction) : Decidable (table.ClosedUnder direction) :=
  decidable_of_iff' _ closedUnder_iff

/-- The neighbours of a key are the keys to which its edges lead. -/
theorem mem_neighbours_iff {keys : List Key} (found : table.neighbours direction key = .ok keys)
    {next : Key} : next ∈ keys ↔ table.Leads direction key next := by
  unfold neighbours at found
  split at found
  · cases found
  · next record present =>
      split at found
      · cases found
      · cases found
        exact mem_links_iff present

/-- In a closed table every key has its neighbours. -/
theorem ClosedUnder.exists_neighbours (closed : table.ClosedUnder direction)
    (present : table.contains key = true) :
    ∃ keys, table.neighbours direction key = .ok keys := by
  obtain ⟨record, found⟩ := (table.contains_iff key).mp present
  unfold neighbours
  rw [found]
  have resolved : (record.links direction).find? (fun link => !table.contains link.2) = none := by
    rw [List.find?_eq_none]
    intro link member
    have leads := (mem_links_iff found).mp (List.mem_map.mpr ⟨link, member, rfl⟩)
    simp [closed key link.2 leads]
  simp only [resolved]
  exact ⟨_, rfl⟩

end Table

namespace Search

variable {table : Table} {query : Query}

/-! ## What a step can do -/

/-- What trying a key leads to. -/
inductive Visit (table : Table) (query : Query) (stack : List Frame) (trail : Trail)
    (next : Key) : Step → Prop
  | dead (isDead : next ∈ trail.dead) : Visit table query stack trail next (.go stack trail)
  | revisited (alive : next ∉ trail.dead) (onPath : next ∈ trail.onPath)
      (goesOn : query.endsOnRevisit = false) :
      Visit table query stack trail next (.go stack trail)
  | closed (alive : next ∉ trail.dead) (onPath : next ∈ trail.onPath)
      (ends : query.endsOnRevisit = true) :
      Visit table query stack trail next (.halt (trail.close next) .success)
  | met (alive : next ∉ trail.dead) (new : next ∉ trail.onPath)
      (isMet : query.isMet table next = true) :
      Visit table query stack trail next (.halt (trail.push next) .success)
  | broken (error : SearchError) (alive : next ∉ trail.dead) (new : next ∉ trail.onPath)
      (unmet : query.isMet table next = false)
      (failed : table.neighbours query.direction next = .error error) :
      Visit table query stack trail next (.halt (trail.push next) (.broken error))
  | entered (keys : List Key) (alive : next ∉ trail.dead) (new : next ∉ trail.onPath)
      (unmet : query.isMet table next = false)
      (found : table.neighbours query.direction next = .ok keys) :
      Visit table query stack trail next (.go (⟨next, keys⟩ :: stack) (trail.push next))

theorem visit_spec (stack : List Frame) (trail : Trail) (next : Key) :
    Visit table query stack trail next (visit table query stack trail next) := by
  unfold visit
  split
  · next isDead => exact .dead (by simpa using isDead)
  · next alive =>
      have alive : next ∉ trail.dead := by simpa using alive
      split
      · next onPath =>
          have onPath : next ∈ trail.onPath := by simpa using onPath
          split
          · next ends => exact .closed alive onPath ends
          · next goesOn => exact .revisited alive onPath (by simpa using goesOn)
      · next new =>
          have new : next ∉ trail.onPath := by simpa using new
          split
          · next isMet => exact .met alive new isMet
          · next unmet =>
              have unmet : query.isMet table next = false := by simpa using unmet
              cases neighbours : table.neighbours query.direction next with
              | error error => exact .broken error alive new unmet neighbours
              | ok keys => exact .entered keys alive new unmet neighbours

/-- What one step leads to. -/
inductive Advance (table : Table) (query : Query) : List Frame → Trail → Step → Prop
  | exhausted (trail : Trail) : Advance table query [] trail (.halt trail .exhausted)
  | retired (key : Key) (below : List Frame) (trail : Trail) :
      Advance table query (⟨key, []⟩ :: below) trail (.go below trail.retire)
  | tried (key next : Key) (rest : List Key) (below : List Frame) (trail : Trail) {result : Step}
      (visited : Visit table query (⟨key, rest⟩ :: below) trail next result) :
      Advance table query (⟨key, next :: rest⟩ :: below) trail result

theorem step_spec (stack : List Frame) (trail : Trail) :
    Advance table query stack trail (step table query stack trail) := by
  match stack with
  | [] => exact .exhausted trail
  | ⟨key, []⟩ :: below => exact .retired key below trail
  | ⟨key, next :: rest⟩ :: below => exact .tried key next rest below trail (visit_spec _ _ _)

/-- What every step preserves holds until the search is over. -/
theorem run_invariant (invariant : List Frame → Trail → Prop) {ends : Trail → Outcome → Prop}
    (go : ∀ stack trail after later, invariant stack trail →
      Advance table query stack trail (.go after later) → invariant after later)
    (halt : ∀ stack trail final outcome, invariant stack trail →
      Advance table query stack trail (.halt final outcome) → ends final outcome)
    {stack : List Frame} {trail : Trail} (holds : invariant stack trail) :
    ends (run table query stack trail).1 (run table query stack trail).2 := by
  induction stack, trail using run.induct table query with
  | case1 stack trail final outcome stopped =>
      have advance := @step_spec table query stack trail
      rw [stopped] at advance
      rw [run]
      split
      · next stoppedAgain =>
          cases stopped.symm.trans stoppedAgain
          exact halt stack trail final outcome holds advance
      · next moved => cases stopped.symm.trans moved
  | case2 stack trail after later moved induction =>
      have advance := @step_spec table query stack trail
      rw [moved] at advance
      rw [run]
      split
      · next stopped => cases moved.symm.trans stopped
      · next movedAgain =>
          cases moved.symm.trans movedAgain
          exact induction (go stack trail after later holds advance)

/-- The same for a search from one key. -/
theorem traverse_invariant (invariant : List Frame → Trail → Prop) {ends : Trail → Outcome → Prop}
    {start : Key} {trail : Trail}
    (entered : ∀ after later, Visit table query [] trail start (.go after later) →
      invariant after later)
    (stopped : ∀ final outcome, Visit table query [] trail start (.halt final outcome) →
      ends final outcome)
    (go : ∀ stack trail after later, invariant stack trail →
      Advance table query stack trail (.go after later) → invariant after later)
    (halt : ∀ stack trail final outcome, invariant stack trail →
      Advance table query stack trail (.halt final outcome) → ends final outcome) :
    ends (traverse table query start trail).1 (traverse table query start trail).2 := by
  have visited := @visit_spec table query [] trail start
  unfold traverse
  split
  · next final outcome result =>
      rw [result] at visited
      exact stopped final outcome visited
  · next after later result =>
      rw [result] at visited
      exact run_invariant invariant go halt (entered after later visited)

/-! ## Stack and path -/

/-- The path of the trail is that of the stack, without repetition and without dead keys. -/
structure Standing (stack : List Frame) (trail : Trail) : Prop where
  /-- The path is that of the stack. -/
  keys : trail.found = (stack.map Frame.key).reverse
  /-- The set of its keys is known. -/
  onPath : ∀ key, key ∈ trail.onPath ↔ key ∈ trail.found
  /-- No key is on it twice. -/
  distinct : trail.found.Nodup
  /-- None of its keys is dead. -/
  alive : ∀ key ∈ trail.found, key ∉ trail.dead

namespace Standing

variable {stack after below : List Frame} {trail later : Trail} {key next : Key}
  {rest : List Key}

theorem empty {trail : Trail} (found : trail.found = []) (onPath : trail.onPath = []) :
    Standing [] trail where
  keys := found
  onPath key := by rw [found, onPath]
  distinct := by simp [found]
  alive key member := by simp [found] at member

theorem found_cons (standing : Standing (⟨key, rest⟩ :: below) trail) :
    trail.found = (below.map Frame.key).reverse ++ [key] := by
  simpa using standing.keys

/-- Neighbours that are tried do not matter. -/
theorem tried (standing : Standing (⟨key, next :: rest⟩ :: below) trail) :
    Standing (⟨key, rest⟩ :: below) trail :=
  ⟨standing.keys, standing.onPath, standing.distinct, standing.alive⟩

theorem push (standing : Standing stack trail) (alive : next ∉ trail.dead)
    (new : next ∉ trail.onPath) (keys : List Key) :
    Standing (⟨next, keys⟩ :: stack) (trail.push next) where
  keys := by simp [Trail.push, standing.keys]
  onPath key := by simp [Trail.push, standing.onPath, or_comm]
  distinct := by
    rw [standing.onPath] at new
    refine List.nodup_append.mpr ⟨standing.distinct, by simp, ?_⟩
    rintro key member other final rfl
    exact new (List.mem_singleton.mp final ▸ member)
  alive key member := by
    rcases List.mem_append.mp member with old | final
    · exact standing.alive key old
    · rwa [List.mem_singleton.mp final]

/-- Leaving a key takes the path back to the stack below and makes the key dead. -/
theorem retire_eq (standing : Standing (⟨key, rest⟩ :: below) trail) :
    trail.retire =
      { found := (below.map Frame.key).reverse
        onPath := trail.onPath.filter (· != key)
        dead := key :: trail.dead
        journal := trail.journal ++ [.deadEnd key] } := by
  simp [Trail.retire, standing.found_cons]

theorem retire (standing : Standing (⟨key, rest⟩ :: below) trail) :
    Standing below trail.retire := by
  have found := standing.found_cons
  have distinct := standing.distinct
  rw [found, List.nodup_append] at distinct
  obtain ⟨belowDistinct, -, apart⟩ := distinct
  have different : ∀ other ∈ (below.map Frame.key).reverse, other ≠ key := fun other member =>
    apart other member key List.mem_cons_self
  rw [standing.retire_eq]
  refine ⟨rfl, fun other => ?_, belowDistinct, fun other member => ?_⟩
  · simp only [List.mem_filter, standing.onPath, found, List.mem_append, List.mem_singleton,
      bne_iff_ne]
    constructor
    · rintro ⟨old | same, isDifferent⟩
      · exact old
      · exact absurd same isDifferent
    · exact fun member => ⟨.inl member, different other member⟩
  · rw [List.mem_cons, not_or]
    refine ⟨different other member, standing.alive other ?_⟩
    rw [found]
    exact List.mem_append_left _ member

theorem visit (standing : Standing stack trail)
    (visited : Visit table query stack trail next (.go after later)) : Standing after later := by
  cases visited with
  | dead => exact standing
  | revisited => exact standing
  | entered keys alive new => exact standing.push alive new keys

/-- One step keeps stack and path together. -/
theorem step (standing : Standing stack trail)
    (advance : Advance table query stack trail (.go after later)) : Standing after later := by
  cases advance with
  | retired key below trail => exact standing.retire
  | tried key next rest below trail visited => exact standing.tried.visit visited

end Standing

/-! ## Walks from a start -/

/-- A key may come next: it is the start, or an edge leads to it from the end of the path. -/
structure Follows (table : Table) (query : Query) (start : Key) (stack : List Frame)
    (next : Key) : Prop where
  /-- Without a path it is the start. -/
  first : stack = [] → next = start
  /-- An edge leads to it. -/
  leads : ∀ frame ∈ stack.head?, table.Leads query.direction frame.key next

/-- The path is a walk from the start that passes no other ignored key. -/
structure Walking (table : Table) (query : Query) (start : Key) (stack : List Frame)
    (trail : Trail) : Prop extends Standing stack trail where
  /-- The path begins at the start. -/
  head : ∀ key ∈ trail.found.head?, key = start
  /-- It follows the edges of the direction. -/
  chain : trail.found.IsChain (table.Leads query.direction)
  /-- The neighbours still to be tried are neighbours. -/
  tries : ∀ frame ∈ stack, ∀ next ∈ frame.rest, table.Leads query.direction frame.key next
  /-- Ignored keys are dead, except for the start. -/
  blocked : ∀ key ∈ query.ignoredKeys table, key = start ∨ key ∈ trail.dead

namespace Walking

variable {stack after below : List Frame} {trail later : Trail} {start key next : Key}
  {rest : List Key}

theorem follows (walking : Walking table query start (⟨key, next :: rest⟩ :: below) trail) :
    Follows table query start (⟨key, rest⟩ :: below) next where
  first empty := by cases empty
  leads frame top := by
    cases top
    exact walking.tries ⟨key, next :: rest⟩ List.mem_cons_self next List.mem_cons_self

theorem tried (walking : Walking table query start (⟨key, next :: rest⟩ :: below) trail) :
    Walking table query start (⟨key, rest⟩ :: below) trail where
  toStanding := walking.toStanding.tried
  head := walking.head
  chain := walking.chain
  tries frame member other listed := by
    rcases List.mem_cons.mp member with rfl | lower
    · exact walking.tries ⟨key, next :: rest⟩ List.mem_cons_self other
        (List.mem_cons_of_mem _ listed)
    · exact walking.tries frame (List.mem_cons_of_mem _ lower) other listed
  blocked := walking.blocked

/-- The path with one more key is a walk from the start. -/
theorem append (walking : Walking table query start stack trail)
    (follows : Follows table query start stack next) :
    (trail.found ++ [next]).head? = some start ∧
      (trail.found ++ [next]).IsChain (table.Leads query.direction) := by
  have keys := walking.keys
  cases stack with
  | nil =>
      have found : trail.found = [] := keys
      rw [found, follows.first rfl]
      exact ⟨rfl, .singleton start⟩
  | cons frame below =>
      have found : trail.found = (below.map Frame.key).reverse ++ [frame.key] := by
        simpa using keys
      constructor
      · cases path : trail.found with
        | nil => simp [path] at found
        | cons first others =>
            have isStart := walking.head first (by simp [path])
            simp [isStart]
      · refine walking.chain.append (.singleton next) fun last isLast other isNext => ?_
        simp only [found, List.getLast?_append, List.getLast?_singleton, Option.mem_def,
          Option.some_or, Option.some.injEq, List.head?_cons] at isLast isNext
        subst isLast isNext
        exact follows.leads frame rfl

theorem visit (walking : Walking table query start stack trail)
    (follows : Follows table query start stack next)
    (visited : Visit table query stack trail next (.go after later)) :
    Walking table query start after later := by
  have standing := walking.toStanding.visit visited
  cases visited with
  | dead => exact walking
  | revisited => exact walking
  | entered keys alive new unmet neighbours =>
      obtain ⟨head, chain⟩ := walking.append follows
      refine ⟨standing, fun key first => ?_, chain, fun frame member other listed => ?_,
        walking.blocked⟩
      · exact Option.some.inj (first.symm.trans head)
      · rcases List.mem_cons.mp member with rfl | lower
        · exact (Table.mem_neighbours_iff neighbours).mp listed
        · exact walking.tries frame lower other listed

theorem retire (walking : Walking table query start (⟨key, rest⟩ :: below) trail) :
    Walking table query start below trail.retire := by
  have found := walking.toStanding.found_cons
  have standing := walking.toStanding.retire
  rw [walking.toStanding.retire_eq] at standing ⊢
  have head := walking.head
  have chain := walking.chain
  rw [found] at head chain
  refine ⟨standing, fun first isFirst => head first ?_, chain.left_of_append,
    fun frame member => walking.tries frame (List.mem_cons_of_mem _ member),
    fun other ignored => ?_⟩
  · rw [List.head?_append, isFirst]
    rfl
  · exact (walking.blocked other ignored).imp_right (List.mem_cons_of_mem _)

/-- One step keeps the path a walk from the start. -/
theorem step (walking : Walking table query start stack trail)
    (advance : Advance table query stack trail (.go after later)) :
    Walking table query start after later := by
  cases advance with
  | retired key below trail => exact walking.retire
  | tried key next rest below trail visited => exact walking.tried.visit walking.follows visited

/-- No key of the path after the start is ignored, nor one that may come next. -/
theorem not_ignored (walking : Walking table query start stack trail)
    (follows : Follows table query start stack next) (alive : next ∉ trail.dead)
    (new : next ∉ trail.onPath) :
    ∀ key ∈ (trail.found ++ [next]).tail, key ∉ query.ignoredKeys table := by
  have pushed := walking.toStanding.push alive new []
  have distinct : (trail.found ++ [next]).Nodup := pushed.distinct
  obtain ⟨head, -⟩ := walking.append follows
  intro key member ignored
  rcases walking.blocked key ignored with rfl | isDead
  · rw [List.head?_eq_some_iff] at head
    obtain ⟨others, path⟩ := head
    rw [path, List.tail_cons] at member
    rw [path, List.nodup_cons] at distinct
    exact distinct.1 member
  · exact pushed.alive key (List.mem_of_mem_tail member) isDead

end Walking

end Search

end CallGraph
