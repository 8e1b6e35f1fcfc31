import CallGraph.Proofs.Search.Independence
import Mathlib.Algebra.BigOperators.Group.Finset.Basic

/-!
# The moments of a search

A whole search is taken apart into moves: it turns to a candidate, tries a neighbour, leaves a key,
or is done with a candidate.  `moment` is where it stands after some number of moves, and
`conclusion_moment` says that every moment leads to the result of the whole search.

Over all candidates together no key is pushed onto the path twice.  A key that was pushed is on the
path or dead, and a dead key is not pushed, unless it is an ignored candidate, which is taken back
from the dead before it is searched from.  But such a key was dead until then, so it was not pushed
before.  Hence every key is charged at most once for itself and for its edges, and this bounds the
number of moves on every table, whatever cycles it has.
-/

namespace CallGraph

/-! ## What neighbours cost -/

/-- The key at which a search broke off. -/
def SearchError.source : SearchError → Key
  | .absent key => key
  | .unresolved source _ _ => source

namespace Table

/-- What a search spends on a key that it enters: a move for each edge and one to leave the key. -/
def weight (table : Table) (direction : Direction) (key : Key) : Nat :=
  (table.get? key).elim 0 (fun record => (record.links direction).length) + 1

variable {table : Table} {direction : Direction} {key : Key} {keys : List Key}

/-- A key that has neighbours has a record, and all its edges in the direction lead to records. -/
theorem exists_record_of_neighbours (found : table.neighbours direction key = .ok keys) :
    ∃ record, table.get? key = some record ∧ keys = (record.links direction).map Prod.snd ∧
      ∀ link ∈ record.links direction, table.contains link.2 = true := by
  unfold neighbours at found
  split at found
  · cases found
  · next record present =>
      split at found
      · cases found
      · next resolved =>
          cases found
          refine ⟨record, present, rfl, fun link linked => ?_⟩
          rw [List.find?_eq_none] at resolved
          simpa using resolved link linked

theorem weight_of_neighbours (found : table.neighbours direction key = .ok keys) :
    table.weight direction key = keys.length + 1 := by
  obtain ⟨record, present, rfl, -⟩ := exists_record_of_neighbours found
  simp [weight, present]

theorem mem_keys_of_mem_neighbours (found : table.neighbours direction key = .ok keys)
    {next : Key} (member : next ∈ keys) : next ∈ table.keys := by
  obtain ⟨record, -, rfl, resolved⟩ := exists_record_of_neighbours found
  obtain ⟨link, linked, rfl⟩ := List.mem_map.mp member
  exact (table.mem_keys_iff link.2).mpr (resolved link linked)

theorem source_of_neighbours {error : SearchError}
    (failed : table.neighbours direction key = .error error) : error.source = key := by
  unfold neighbours at failed
  split at failed
  · cases failed
    rfl
  · split at failed
    · cases failed
      rfl
    · cases failed

end Table

namespace Search

/-! ## Moves -/

/-- Where a whole search stands between two moves. -/
inductive Moment where
  /-- It is about to turn to the next candidate. -/
  | between (ahead : List Key) (trail : Trail)
  /-- It searches from a candidate, and these others are ahead. -/
  | within (ahead : List Key) (stack : List Frame) (trail : Trail)
  /-- It is over. -/
  | done (final : Trail) (outcome : Outcome)

namespace Moment

/-- The trail of a moment. -/
@[simp] def trail : Moment → Trail
  | between _ trail => trail
  | within _ _ trail => trail
  | done final _ => final

/-- The stack of a moment, which is empty unless a candidate is searched from. -/
@[simp] def stack : Moment → List Frame
  | within _ stack _ => stack
  | _ => []

/-- Where a search stands when the search from one candidate took a step. -/
@[simp] def ofStep (ahead : List Key) : Step → Moment
  | .go stack trail => .within ahead stack trail
  | .halt final .exhausted => .between ahead final.restart
  | .halt final outcome => .done final outcome

end Moment

/-- One move of a whole search; a search that is over stays as it is. -/
def move (table : Table) (query : Query) : Moment → Moment
  | .between [] trail => .done trail .exhausted
  | .between (start :: ahead) trail =>
      .ofStep ahead (visit table query [] (opened table query start trail) start)
  | .within ahead stack trail => .ofStep ahead (step table query stack trail)
  | .done final outcome => .done final outcome

/-- Where a search of a table stands after a number of moves. -/
def moment (table : Table) (query : Query) : Nat → Moment
  | 0 => .between (query.candidates table) { dead := query.ignoredKeys table }
  | n + 1 => move table query (moment table query n)

variable {table : Table} {query : Query} {ahead pushed asked : List Key} {start key next : Key}
  {stack below : List Frame} {trail : Trail} {rest : List Key} {n : Nat}

/-- What the search comes to when the search from one candidate came to an end. -/
def conclude (table : Table) (query : Query) (ahead : List Key) : Trail × Outcome → Trail × Outcome
  | (final, .exhausted) => fromCandidates table query ahead final.restart
  | (final, outcome) => (final, outcome)

/-- What the search comes to from a moment on. -/
def conclusion (table : Table) (query : Query) : Moment → Trail × Outcome
  | .between ahead trail => fromCandidates table query ahead trail
  | .within ahead stack trail => conclude table query ahead (run table query stack trail)
  | .done final outcome => (final, outcome)

/-- What the search from one candidate comes to after a step. -/
def settle (table : Table) (query : Query) : Step → Trail × Outcome
  | .halt final outcome => (final, outcome)
  | .go stack trail => run table query stack trail

theorem run_eq_settle (stack : List Frame) (trail : Trail) :
    run table query stack trail = settle table query (step table query stack trail) := by
  cases result : step table query stack trail with
  | halt final outcome => exact run_of_halt result
  | go after later => exact run_of_go result

theorem traverse_eq_settle (start : Key) (trail : Trail) :
    traverse table query start trail = settle table query (visit table query [] trail start) := rfl

theorem fromCandidates_cons (start : Key) (ahead : List Key) (trail : Trail) :
    fromCandidates table query (start :: ahead) trail =
      conclude table query ahead
        (traverse table query start (opened table query start trail)) := by
  cases result : traverse table query start (opened table query start trail) with
  | mk final outcome =>
      cases outcome with
      | success => exact fromCandidates_of_success result
      | exhausted => exact fromCandidates_of_exhausted result
      | broken error =>
          unfold opened at result
          simp only [fromCandidates, result, conclude]

theorem conclusion_ofStep (ahead : List Key) (result : Step) :
    conclusion table query (.ofStep ahead result) =
      conclude table query ahead (settle table query result) := by
  cases result with
  | go stack trail => rfl
  | halt final outcome => cases outcome <;> rfl

/-- A move does not change what the search comes to. -/
theorem conclusion_move (current : Moment) :
    conclusion table query (move table query current) = conclusion table query current := by
  cases current with
  | between ahead trail =>
      cases ahead with
      | nil => rfl
      | cons start ahead =>
          rw [move, conclusion_ofStep, conclusion, fromCandidates_cons, traverse_eq_settle]
  | within ahead stack trail => rw [move, conclusion_ofStep, conclusion, run_eq_settle]
  | done final outcome => rfl

/-- Every moment of a search leads to its result. -/
theorem conclusion_moment (table : Table) (query : Query) (n : Nat) :
    conclusion table query (moment table query n) =
      fromCandidates table query (query.candidates table) { dead := query.ignoredKeys table } := by
  induction n with
  | zero => rfl
  | succ n induction => rw [moment, conclusion_move, induction]

/-! ## What moves push and ask for -/

/-- The keys that were pushed since the path had a certain height, newest first.  They are read off
`onPath`, which nothing but `Trail.push` makes longer: the key that closes a cycle is put at the end
of the path without being pushed. -/
def pushedAbove (height : Nat) (trail : Trail) : List Key :=
  trail.onPath.take (trail.onPath.length - height)

/-- The keys whose neighbours were asked for since the stack had a certain height, newest first:
those of the frames above it, and the one at which the search broke off. -/
def askedAbove (height : Nat) : Moment → List Key
  | .done _ (.broken error) => [error.source]
  | current => (current.stack.take (current.stack.length - height)).map Frame.key

/-- The keys that the next move pushes onto the path. -/
def pushedNext (table : Table) (query : Query) (current : Moment) : List Key :=
  pushedAbove current.trail.onPath.length (move table query current).trail

/-- The keys whose neighbours the next move asks for. -/
def askedNext (table : Table) (query : Query) : Moment → List Key
  | .done _ _ => []
  | current => askedAbove current.stack.length (move table query current)

/-- The keys that the first moves of a search push onto the path, newest first. -/
def pushes (table : Table) (query : Query) : Nat → List Key
  | 0 => []
  | n + 1 => pushedNext table query (moment table query n) ++ pushes table query n

/-- The keys whose neighbours the first moves of a search ask for, newest first. -/
def requests (table : Table) (query : Query) : Nat → List Key
  | 0 => []
  | n + 1 => askedNext table query (moment table query n) ++ requests table query n

/-! ## What every move keeps -/

/-- What the keys that were not pushed would cost. -/
def unspent (table : Table) (query : Query) (pushed : List Key) : Nat :=
  ∑ key ∈ table.keys.toFinset \ pushed.toFinset, table.weight query.direction key

theorem unspent_cons (query : Query) (present : next ∈ table.keys) (new : next ∉ pushed) :
    table.weight query.direction next + unspent table query (next :: pushed) =
      unspent table query pushed := by
  rw [unspent, List.toFinset_cons, Finset.sdiff_insert]
  apply Finset.add_sum_erase
  simp [present, new]

theorem Standing.onPath_eq_nil (standing : Standing [] trail) : trail.onPath = [] := by
  rw [List.eq_nil_iff_forall_not_mem]
  intro key member
  simpa [standing.keys] using (standing.onPath key).mp member

/-- What a search knows while it goes on, where `pushed` are the keys that were pushed so far. -/
structure Sparing (table : Table) (query : Query) (pushed ahead : List Key) (stack : List Frame)
    (trail : Trail) : Prop extends Standing stack trail where
  /-- No key was pushed twice. -/
  once : pushed.Nodup
  /-- Only keys of the table were pushed. -/
  present : ∀ key ∈ pushed, key ∈ table.keys
  /-- A key that was pushed is dead or still on the path. -/
  spent : ∀ key ∈ pushed, key ∈ trail.dead ∨ key ∈ trail.found
  /-- No candidate comes twice. -/
  apart : ahead.Nodup
  /-- The candidates are keys of the table. -/
  listed : ∀ start ∈ ahead, start ∈ table.keys
  /-- An ignored candidate whose turn has not come is dead and was not pushed. -/
  spared : ∀ start ∈ ahead, start ∈ query.ignoredKeys table → start ∈ trail.dead ∧ start ∉ pushed
  /-- The neighbours still to be tried are keys of the table. -/
  tries : ∀ frame ∈ stack, ∀ next ∈ frame.rest, next ∈ table.keys

namespace Sparing

theorem tried (sparing : Sparing table query pushed ahead (⟨key, next :: rest⟩ :: below) trail) :
    Sparing table query pushed ahead (⟨key, rest⟩ :: below) trail :=
  { sparing with
    toStanding := sparing.toStanding.tried
    tries := by
      intro frame member other untried
      rcases List.mem_cons.mp member with rfl | lower
      · exact sparing.tries _ List.mem_cons_self other (List.mem_cons_of_mem _ untried)
      · exact sparing.tries frame (List.mem_cons_of_mem _ lower) other untried }

/-- A key that is neither dead nor on the path was not pushed before. -/
theorem not_mem_pushed (sparing : Sparing table query pushed ahead stack trail)
    (alive : next ∉ trail.dead) (new : next ∉ trail.onPath) : next ∉ pushed := by
  intro member
  rcases sparing.spent next member with dead | found
  · exact alive dead
  · exact new ((sparing.onPath next).mpr found)

theorem push (sparing : Sparing table query pushed ahead stack trail)
    (alive : next ∉ trail.dead) (new : next ∉ trail.onPath) {keys : List Key}
    (neighbours : table.neighbours query.direction next = .ok keys) :
    Sparing table query (next :: pushed) ahead (⟨next, keys⟩ :: stack) (trail.push next) :=
  { sparing with
    toStanding := sparing.toStanding.push alive new keys
    once := List.nodup_cons.mpr ⟨sparing.not_mem_pushed alive new, sparing.once⟩
    present := by
      simpa [mem_keys_of_neighbours neighbours] using sparing.present
    spent := by
      intro other member
      rcases List.mem_cons.mp member with rfl | earlier
      · exact .inr (List.mem_append_right _ List.mem_cons_self)
      · exact (sparing.spent other earlier).imp_right (List.mem_append_left _)
    spared := by
      intro start member ignored
      obtain ⟨dead, unpushed⟩ := sparing.spared start member ignored
      refine ⟨dead, fun listed => ?_⟩
      rcases List.mem_cons.mp listed with rfl | earlier
      · exact alive dead
      · exact unpushed earlier
    tries := by
      intro frame member other untried
      rcases List.mem_cons.mp member with rfl | lower
      · exact Table.mem_keys_of_mem_neighbours neighbours untried
      · exact sparing.tries frame lower other untried }

theorem retire (sparing : Sparing table query pushed ahead (⟨key, rest⟩ :: below) trail) :
    Sparing table query pushed ahead below trail.retire :=
  { sparing with
    toStanding := sparing.toStanding.retire
    spent := by
      intro other member
      have place := sparing.spent other member
      rw [sparing.found_cons, List.mem_append, List.mem_singleton] at place
      rw [sparing.retire_eq]
      rcases place with dead | found | rfl
      · exact .inl (List.mem_cons_of_mem _ dead)
      · exact .inr found
      · exact .inl List.mem_cons_self
    spared := by
      intro start member ignored
      obtain ⟨dead, unpushed⟩ := sparing.spared start member ignored
      rw [sparing.retire_eq]
      exact ⟨List.mem_cons_of_mem _ dead, unpushed⟩
    tries := fun frame member => sparing.tries frame (List.mem_cons_of_mem _ member) }

/-- Between two candidates all keys that were pushed are dead. -/
theorem dead_of_mem_pushed (sparing : Sparing table query pushed ahead [] trail)
    (member : key ∈ pushed) : key ∈ trail.dead := by
  have found : trail.found = [] := sparing.keys
  simpa [found] using sparing.spent key member

theorem restart (sparing : Sparing table query pushed ahead [] trail) :
    Sparing table query pushed ahead [] trail.restart :=
  { sparing with
    toStanding := .empty rfl rfl
    spent := fun _ member => .inl (sparing.dead_of_mem_pushed member) }

/-- A candidate that is taken back from the dead was not pushed before its turn. -/
theorem opened (sparing : Sparing table query pushed (start :: ahead) [] trail) :
    Sparing table query pushed ahead [] (opened table query start trail) :=
  { sparing with
    toStanding := .empty (found_opened sparing.keys) (onPath_opened sparing.onPath_eq_nil)
    spent := by
      -- of all dead keys only the candidate is taken back, and only if it is ignored
      intro other member
      refine .inl (mem_dead_opened_iff.mpr ⟨sparing.dead_of_mem_pushed member, ?_⟩)
      intro ignored same
      exact (sparing.spared start List.mem_cons_self ignored).2 (same ▸ member)
    apart := (List.nodup_cons.mp sparing.apart).2
    listed := fun other member => sparing.listed other (List.mem_cons_of_mem _ member)
    spared := by
      intro other member ignored
      obtain ⟨dead, unpushed⟩ := sparing.spared other (List.mem_cons_of_mem _ member) ignored
      have isOther : other ≠ start := by
        intro same
        exact (List.nodup_cons.mp sparing.apart).1 (same ▸ member)
      exact ⟨mem_dead_opened_iff.mpr ⟨dead, fun _ => isOther⟩, unpushed⟩ }

end Sparing

/-- The moves that are enough for a search: one for each key and each edge of the direction, two
for each candidate, and one to end. -/
def effort (table : Table) (query : Query) : Nat :=
  (table.keys.map (table.weight query.direction)).sum + 2 * (query.candidates table).length + 1

/-- Path and stack belong together, and no key of the path is dead.  When a search breaks off, the
key whose neighbours it asked for was pushed already and has no frame yet. -/
def Moment.Orderly : Moment → Prop
  | .between _ trail => Standing [] trail
  | .within _ stack trail => Standing stack trail
  | .done _ .success => True
  | .done final .exhausted => Standing [] final
  | .done final (.broken error) => ∃ below, Standing (⟨error.source, []⟩ :: below) final

/-- The moves that a moment needs for its stack and for the candidates ahead, but for the keys that
will be pushed. -/
def Moment.pending : Moment → Nat
  | .between ahead _ => 2 * ahead.length + 1
  | .within ahead stack _ => work stack + 2 * ahead.length + 2
  | .done _ _ => 0

/-- What is known of a search after `n` moves that have pushed and asked for certain keys.  While it
goes on, the moves made and the moves still needed stay within its effort. -/
inductive Kept (table : Table) (query : Query) (n : Nat) (pushed asked : List Key) : Moment → Prop
  | between {ahead : List Key} {trail : Trail}
      (sparing : Sparing table query pushed ahead [] trail) (requested : asked.Sublist pushed)
      (paid : n + unspent table query pushed + (Moment.between ahead trail).pending ≤
        effort table query) :
      Kept table query n pushed asked (.between ahead trail)
  | within {ahead : List Key} {stack : List Frame} {trail : Trail}
      (sparing : Sparing table query pushed ahead stack trail) (requested : asked.Sublist pushed)
      (paid : n + unspent table query pushed + (Moment.within ahead stack trail).pending ≤
        effort table query) :
      Kept table query n pushed asked (.within ahead stack trail)
  | done {final : Trail} {outcome : Outcome} (once : pushed.Nodup)
      (present : ∀ key ∈ pushed, key ∈ table.keys) (requested : asked.Sublist pushed)
      (orderly : (Moment.done final outcome).Orderly) :
      Kept table query n pushed asked (.done final outcome)

@[simp] theorem pushedAbove_self (trail : Trail) :
    pushedAbove trail.onPath.length trail = [] := by
  simp [pushedAbove]

@[simp] theorem pushedAbove_push (trail : Trail) (next : Key) :
    pushedAbove trail.onPath.length (trail.push next) = [next] := by
  simp [pushedAbove, Trail.push]

@[simp] theorem pushedAbove_close (trail : Trail) (next : Key) :
    pushedAbove trail.onPath.length (trail.close next) = [] := by
  simp [pushedAbove, Trail.close]

@[simp] theorem pushedAbove_restart (trail : Trail) (height : Nat) :
    pushedAbove height trail.restart = [] := by
  simp [pushedAbove, Trail.restart]

theorem pushedAbove_retire (standing : Standing (⟨key, rest⟩ :: below) trail) :
    pushedAbove trail.onPath.length trail.retire = [] := by
  have shrinks := List.length_filter_le (· != key) trail.onPath
  rw [pushedAbove, standing.retire_eq, Nat.sub_eq_zero_of_le shrinks, List.take_zero]

/-- Trying a key pushes it at most once, and then asks for its neighbours at most once.  It is paid
for if it would be without effect. -/
theorem Sparing.kept_visit (sparing : Sparing table query pushed ahead stack trail)
    (requested : asked.Sublist pushed) (present : next ∈ table.keys)
    (paid : n + unspent table query pushed + (Moment.within ahead stack trail).pending ≤
      effort table query) {result : Step} (visited : Visit table query stack trail next result) :
    Kept table query n
      (pushedAbove trail.onPath.length (Moment.ofStep ahead result).trail ++ pushed)
      (askedAbove stack.length (.ofStep ahead result) ++ asked) (.ofStep ahead result) := by
  have allPresent : ∀ key ∈ next :: pushed, key ∈ table.keys := by
    simpa [present] using sparing.present
  have succeeds : ∀ final, (Moment.done final .success).Orderly := fun _ => trivial
  cases visited with
  | dead isDead => simpa [askedAbove] using Kept.within sparing requested paid
  | revisited alive onPath goesOn =>
      simpa [askedAbove] using Kept.within sparing requested paid
  | closed alive onPath ends =>
      have orderly := succeeds (trail.close next)
      simpa [askedAbove] using Kept.done sparing.once sparing.present requested orderly
  | met alive new isMet =>
      have once := List.nodup_cons.mpr ⟨sparing.not_mem_pushed alive new, sparing.once⟩
      have orderly := succeeds (trail.push next)
      simpa [askedAbove] using Kept.done once allPresent (requested.cons next) orderly
  | broken error alive new unmet failed =>
      have once := List.nodup_cons.mpr ⟨sparing.not_mem_pushed alive new, sparing.once⟩
      have source := Table.source_of_neighbours failed
      have orderly : (Moment.done (trail.push next) (.broken error)).Orderly :=
        ⟨stack, source ▸ sparing.toStanding.push alive new []⟩
      have bothGrow := requested.cons_cons next
      simpa [askedAbove, source] using Kept.done once allPresent bothGrow orderly
  | entered keys alive new unmet neighbours =>
      have cost := unspent_cons query present (sparing.not_mem_pushed alive new)
      rw [Table.weight_of_neighbours neighbours] at cost
      have paidAfter : n + unspent table query (next :: pushed) +
          (Moment.within ahead (⟨next, keys⟩ :: stack) (trail.push next)).pending ≤
            effort table query := by
        simp only [Moment.pending, work] at paid ⊢
        omega
      have bothGrow := requested.cons_cons next
      have entered := sparing.push alive new neighbours
      simpa [askedAbove] using Kept.within entered bothGrow paidAfter

/-- What every move keeps. -/
theorem Kept.move {current : Moment} (kept : Kept table query n pushed asked current) :
    Kept table query (n + 1) (pushedNext table query current ++ pushed)
      (askedNext table query current ++ asked) (move table query current) := by
  cases kept with
  | @between ahead trail sparing requested paid =>
      cases ahead with
      | nil =>
          have orderly : (Moment.done trail .exhausted).Orderly := sparing.toStanding
          simpa [pushedNext, askedNext, askedAbove, Search.move] using
            Kept.done sparing.once sparing.present requested orderly
      | cons start ahead =>
          have present := sparing.listed start List.mem_cons_self
          have empty := sparing.onPath_eq_nil
          have height : (opened table query start trail).onPath.length = trail.onPath.length := by
            rw [onPath_opened empty, empty]
          have paidAfter : n + 1 + unspent table query pushed +
              (Moment.within ahead [] (Search.opened table query start trail)).pending ≤
                effort table query := by
            simp only [Moment.pending, work, List.length_cons] at paid ⊢
            omega
          have kept := sparing.opened.kept_visit requested present paidAfter (visit_spec [] _ start)
          rw [height] at kept
          exact kept
  | @within ahead stack trail sparing requested paid =>
      have advance := @step_spec table query stack trail
      -- pushes and requests are read off the two moments, so the cases are those of the step
      simp only [pushedNext, askedNext, Search.move, Moment.trail, Moment.stack]
      generalize step table query stack trail = result at advance
      cases advance with
      | exhausted =>
          have paidAfter : n + 1 + unspent table query pushed +
              (Moment.between ahead trail.restart).pending ≤ effort table query := by
            simp only [Moment.pending, work] at paid ⊢
            omega
          simpa [askedAbove] using Kept.between sparing.restart requested paidAfter
      | retired key below =>
          have paidAfter : n + 1 + unspent table query pushed +
              (Moment.within ahead below trail.retire).pending ≤ effort table query := by
            simp only [Moment.pending, work, List.length_nil] at paid ⊢
            omega
          have kept := Kept.within sparing.retire requested paidAfter
          simpa [askedAbove, pushedAbove_retire sparing.toStanding] using kept
      | tried key next rest below _ visited =>
          have present := sparing.tries _ List.mem_cons_self next List.mem_cons_self
          have paidAfter : n + 1 + unspent table query pushed +
              (Moment.within ahead (⟨key, rest⟩ :: below) trail).pending ≤
                effort table query := by
            simp only [Moment.pending, work, List.length_cons] at paid ⊢
            omega
          exact sparing.tried.kept_visit requested present paidAfter visited
  | done once present requested orderly =>
      simpa [pushedNext, askedNext, Search.move] using Kept.done once present requested orderly

theorem kept_begun (table : Table) (query : Query) :
    Kept table query 0 [] [] (moment table query 0) := by
  have apart : (query.candidates table).Nodup :=
    table.records.distinct.sublist (List.filter_sublist.map Prod.fst)
  have listed : ∀ start ∈ query.candidates table, start ∈ table.keys :=
    (List.filter_sublist.map Prod.fst).subset
  have sparing : Sparing table query [] (query.candidates table) []
      { dead := query.ignoredKeys table } :=
    { toStanding := .empty rfl rfl
      once := .nil
      present := nofun
      spent := nofun
      apart
      listed
      spared := fun start _ ignored => ⟨ignored, List.not_mem_nil⟩
      tries := nofun }
  refine .between sparing (.refl []) ?_
  have whole : unspent table query [] = (table.keys.map (table.weight query.direction)).sum := by
    rw [unspent, List.toFinset_nil, Finset.sdiff_empty]
    exact List.sum_toFinset _ table.records.keys_nodup
  rw [effort, whole, Moment.pending]
  omega

/-- What is kept by every move holds at every moment of a search. -/
theorem kept_moment (table : Table) (query : Query) (n : Nat) :
    Kept table query n (pushes table query n) (requests table query n) (moment table query n) := by
  induction n with
  | zero => exact kept_begun table query
  | succ n induction => exact induction.move

theorem Kept.orderly {current : Moment} (kept : Kept table query n pushed asked current) :
    current.Orderly := by
  cases kept with
  | between sparing => exact sparing.toStanding
  | within sparing => exact sparing.toStanding
  | done once present requested orderly => exact orderly

theorem Kept.once {current : Moment} (kept : Kept table query n pushed asked current) :
    pushed.Nodup ∧ pushed ⊆ table.keys ∧ asked.Sublist pushed := by
  cases kept with
  | between sparing requested => exact ⟨sparing.once, sparing.present, requested⟩
  | within sparing requested => exact ⟨sparing.once, sparing.present, requested⟩
  | done once present requested => exact ⟨once, present, requested⟩

/-- A search that has made all moves that its effort allows is over. -/
theorem Kept.exists_done {current : Moment}
    (kept : Kept table query (effort table query) pushed asked current) :
    ∃ final outcome, current = .done final outcome := by
  cases kept with
  | between sparing requested paid =>
      rw [Moment.pending] at paid
      omega
  | within sparing requested paid =>
      rw [Moment.pending] at paid
      omega
  | @done final outcome => exact ⟨final, outcome, rfl⟩

end Search

/-- Over a whole search, for whatever table and query, no key is pushed onto the path twice, and
neighbours are asked for only of keys that were pushed, so no more often than the table has keys.
Until the search succeeds, path and stack belong together and no key of the path is dead.  The
search ends within its effort, however many cycles the table has. -/
theorem Table.search_pushes_once (table : Table) (query : Query) :
    (∀ n, (Search.pushes table query n).Nodup ∧ Search.pushes table query n ⊆ table.keys ∧
        (Search.requests table query n).Sublist (Search.pushes table query n) ∧
        (Search.requests table query n).length ≤ table.keys.length ∧
        (Search.moment table query n).Orderly) ∧
      ∃ final outcome,
        Search.moment table query (Search.effort table query) = .done final outcome ∧
        table.search query = ⟨Search.answer (final, outcome), final.journal⟩ := by
  constructor
  · intro n
    have kept := Search.kept_moment table query n
    obtain ⟨once, present, requested⟩ := kept.once
    have bound := requested.length_le.trans (once.subperm present).length_le
    exact ⟨once, present, requested, bound, kept.orderly⟩
  · obtain ⟨final, outcome, ended⟩ :=
      (Search.kept_moment table query (Search.effort table query)).exists_done
    refine ⟨final, outcome, ended, ?_⟩
    have conclusion := Search.conclusion_moment table query (Search.effort table query)
    rw [ended, Search.conclusion] at conclusion
    rw [search, ← conclusion]
    cases outcome <;> rfl

/-- The second function is dead while the first is searched from, since it is ignored.  It is taken
back for its own search, and then it is pushed for the first time. -/
example :
    let table : Table := .ofRecords
      [("f", { name := "f", kind := some .function, calls := ["g"] }),
        ("g", { name := "g", kind := some .function, calls := ["f"] })]
    let query : Query := { start := fun _ => true, goal := .revisit, ignore := ["g"] }
    Search.pushes table query (Search.effort table query) = ["g", "f"] := by rfl

end CallGraph
