import CallGraph.Proofs.Search.Path
import Mathlib

/-!
# Starts on their own

A path search keeps the dead keys from start to start.  It answers nevertheless as if every start
were searched from on its own, with no key dead but the other ignored ones.

A search of a start on its own may enter keys that an earlier start has left behind.  These detours
change nothing: keys left behind are not what is looked for, all their edges lead to records, and
these are left behind too, ignored, or the start itself.  So the search on its own shadows the
shared one: the two stacks differ by a detour at the top, and the shared search stands still while a
detour lasts.
-/

namespace CallGraph

namespace Search

/-- The trail of a start on its own: the ignored keys are dead, except for the start. -/
def ownTrail (table : Table) (query : Query) (start : Key) : Trail :=
  { dead := (query.ignoredKeys table).filter (· != start) }

/-- A search from one start alone. -/
def alone (table : Table) (query : Query) (start : Key) : Trail × Outcome :=
  traverse table query start (ownTrail table query start)

/-- Search from each of the given keys alone, until one succeeds or cannot go on. -/
def eachAlone (table : Table) (query : Query) : List Key → Except SearchError (List Key)
  | [] => .ok []
  | start :: starts =>
      match alone table query start with
      | (trail, .success) => .ok trail.found
      | (_, .exhausted) => eachAlone table query starts
      | (_, .broken error) => .error error

variable {table : Table} {query : Query} {finish : String → Bool} {start key next : Key}
  {stack after below detour : List Frame} {trail later plain shared : Trail} {rest old : List Key}

theorem run_of_go (moved : step table query stack trail = .go after later) :
    run table query stack trail = run table query after later := by
  rw [run]
  split
  · next stopped => cases moved.symm.trans stopped
  · next movedAgain =>
      cases moved.symm.trans movedAgain
      rfl

theorem run_of_halt {final : Trail} {outcome : Outcome}
    (stopped : step table query stack trail = .halt final outcome) :
    run table query stack trail = (final, outcome) := by
  rw [run]
  split
  · next stoppedAgain =>
      cases stopped.symm.trans stoppedAgain
      rfl
  · next moved => cases stopped.symm.trans moved

theorem endsOnRevisit_eq_false (sought : query.goal = .function finish) :
    query.endsOnRevisit = false := by
  simp [Query.endsOnRevisit, sought]

/-! ## Keys that were left behind -/

/-- What is known of the dead keys between two starts: they are settled, and those that are not
ignored have all their neighbours. -/
structure Spent (table : Table) (query : Query) (dead : List Key) : Prop
    extends Settled table query dead where
  /-- Every edge of a dead key leads to a record. -/
  resolved : ∀ key ∈ dead, key ∉ query.ignoredKeys table →
    ∃ keys, table.neighbours query.direction key = .ok keys

theorem spent_ignoredKeys : Spent table query (query.ignoredKeys table) :=
  ⟨settled_ignoredKeys, fun _ member passes => absurd member passes⟩

/-- The keys that a search has entered, the path and the dead keys that are not ignored, have all
their neighbours. -/
def Resolved (table : Table) (query : Query) (trail : Trail) : Prop :=
  ∀ key, key ∈ trail.found ∨ key ∈ trail.dead ∧ key ∉ query.ignoredKeys table →
    ∃ keys, table.neighbours query.direction key = .ok keys

namespace Resolved

theorem visit (resolved : Resolved table query trail)
    (visited : Visit table query stack trail next (.go after later)) :
    Resolved table query later := by
  cases visited with
  | dead => exact resolved
  | revisited => exact resolved
  | entered keys alive new unmet neighbours =>
      rintro key (member | dead)
      · rcases List.mem_append.mp member with old | final
        · exact resolved key (.inl old)
        · exact ⟨keys, List.mem_singleton.mp final ▸ neighbours⟩
      · exact resolved key (.inr dead)

theorem step (resolved : Resolved table query trail) (standing : Standing stack trail)
    (advance : Advance table query stack trail (.go after later)) :
    Resolved table query later := by
  cases advance with
  | retired key below trail =>
      have found := standing.found_cons
      rw [standing.retire_eq]
      rintro other (member | ⟨dead, passes⟩)
      · exact resolved other (.inl (found ▸ List.mem_append_left _ member))
      · rcases List.mem_cons.mp dead with rfl | earlier
        · exact resolved other (.inl (by simp [found]))
        · exact resolved other (.inr ⟨earlier, passes⟩)
  | tried key next rest below trail visited => exact resolved.visit visited

end Resolved

/-- A search that finds nothing leaves nothing to be found behind. -/
theorem Spent.traverse (spent : Spent table query trail.dead) (found : trail.found = [])
    (onPath : trail.onPath = []) (sought : query.goal = .function finish)
    (exhausted : (traverse table query start (opened table query start trail)).2 = .exhausted) :
    Spent table query (traverse table query start (opened table query start trail)).1.dead := by
  have walking : Walking table query start [] (opened table query start trail) :=
    walking_opened spent.ignored found onPath
  have resolved : Resolved table query (opened table query start trail) := by
    rintro key (member | ⟨dead, passes⟩)
    · simp [found_opened found] at member
    · exact spent.resolved key (mem_dead_opened_iff.mp dead).1 passes
  have follows : Follows table query start [] start := ⟨fun _ => rfl, nofun⟩
  have clearing : Clearing table query start [start] [] (opened table query start trail) :=
    spent.toSettled.clearing found
  revert exhausted
  refine @traverse_invariant table query (fun stack trail =>
    Walking table query start stack trail ∧ Clearing table query start [] stack trail ∧
      Resolved table query trail)
    (fun final outcome => outcome = .exhausted → Spent table query final.dead) start _ ?_ ?_ ?_ ?_
  · intro after later visited
    exact ⟨walking.visit follows visited, clearing.visit walking.toStanding visited,
      resolved.visit visited⟩
  · intro final outcome visited exhausted
    subst exhausted
    cases visited
  · rintro stack trail after later ⟨walking, clearing, resolved⟩ advance
    exact ⟨walking.step advance, clearing.step walking.toStanding advance,
      resolved.step walking.toStanding advance⟩
  · rintro stack trail final outcome ⟨walking, clearing, resolved⟩ advance exhausted
    subst exhausted
    cases advance with
    | exhausted =>
        exact ⟨(clearing.exhausted walking sought).1, fun key dead passes =>
          resolved key (.inr ⟨dead, passes⟩)⟩
    | tried key next rest below _ visited => cases visited

/-- Keys that a search from the start need not enter. -/
structure Barren (table : Table) (query : Query) (start : Key) (old : List Key) : Prop where
  /-- But for ignored keys, none is what is looked for, and their edges lead to such keys or to the
  start. -/
  fruitless : ∀ key ∈ old, key ∉ query.ignoredKeys table → query.isMet table key = false ∧
    ∃ keys, table.neighbours query.direction key = .ok keys ∧
      ∀ next ∈ keys, next ∈ old ∨ next = start
  /-- The start is not among the ignored ones. -/
  other : ∀ key ∈ old, key ∈ query.ignoredKeys table → key ≠ start

theorem Spent.barren (spent : Spent table query trail.dead) :
    Barren table query start (opened table query start trail).dead where
  fruitless key isOld passes := by
    have dead := (mem_dead_opened_iff.mp isOld).1
    obtain ⟨unmet, closed⟩ := spent.closed key dead passes
    obtain ⟨keys, neighbours⟩ := spent.resolved key dead passes
    refine ⟨unmet, keys, neighbours, fun next listed => ?_⟩
    by_cases isStart : next = start
    · exact .inr isStart
    · have nextDead := closed next ((Table.mem_neighbours_iff neighbours).mp listed)
      exact .inl (mem_dead_opened_iff.mpr ⟨nextDead, fun _ => isStart⟩)
  other key isOld ignored := by
    rintro rfl
    exact (mem_dead_opened_iff.mp isOld).2 ignored rfl

/-- A start that was tried stays on the path or becomes dead. -/
theorem searched_visit (standing : Standing stack trail)
    (searched : start ∈ trail.dead ∨ start ∈ trail.found ∨ start = next)
    (visited : Visit table query stack trail next (.go after later)) :
    start ∈ later.dead ∨ start ∈ later.found := by
  cases visited with
  | dead isDead =>
      rcases searched with dead | found | rfl
      · exact .inl dead
      · exact .inr found
      · exact .inl isDead
  | revisited alive onPath =>
      rcases searched with dead | found | rfl
      · exact .inl dead
      · exact .inr found
      · exact .inr ((standing.onPath start).mp onPath)
  | entered =>
      rcases searched with dead | found | rfl
      · exact .inl dead
      · exact .inr (List.mem_append_left _ found)
      · exact .inr (List.mem_append_right _ List.mem_cons_self)

theorem searched_step (searched : start ∈ trail.dead ∨ start ∈ trail.found)
    (standing : Standing stack trail)
    (advance : Advance table query stack trail (.go after later)) :
    start ∈ later.dead ∨ start ∈ later.found := by
  cases advance with
  | retired key below trail =>
      rw [standing.retire_eq]
      rw [standing.found_cons, List.mem_append, List.mem_singleton] at searched
      rcases searched with dead | found | rfl
      · exact .inl (List.mem_cons_of_mem _ dead)
      · exact .inr found
      · exact .inl List.mem_cons_self
  | tried key next rest below trail visited =>
      exact searched_visit standing.tried (searched.imp_right .inl) visited

/-! ## Detours -/

/-- A key that was left behind, of which such keys or the start are still to be tried. -/
def Aside (start : Key) (old : List Key) (frame : Frame) : Prop :=
  frame.key ∈ old ∧ ∀ next ∈ frame.rest, next ∈ old ∨ next = start

/-- The search on its own shadows the shared one: it is on a detour through old keys, and the shared
search holds these for dead as well. -/
structure Shadows (start : Key) (old : List Key) (detour : List Frame) (plain shared : Trail) :
    Prop where
  /-- The detour passes old keys only. -/
  aside : ∀ frame ∈ detour, Aside start old frame
  /-- What is dead to the shared search is dead to the other one or old. -/
  dead : ∀ key, key ∈ shared.dead ↔ key ∈ plain.dead ∨ key ∈ old

/-- Trying a key that is spent does not end the search; at most it begins a detour. -/
theorem visit_spent (barren : Barren table query start old)
    (blocked : ∀ key ∈ query.ignoredKeys table, key = start ∨ key ∈ plain.dead)
    (sought : query.goal = .function finish)
    (spent : next ∈ plain.dead ∨ next ∈ plain.onPath ∨ next ∈ old) (stack : List Frame) :
    ∃ detour later, visit table query stack plain next = .go (detour ++ stack) later ∧
      later.dead = plain.dead ∧ ∀ frame ∈ detour, Aside start old frame := by
  have fruitless : next ∉ plain.dead → next ∉ plain.onPath →
      next ∈ old ∧ next ∉ query.ignoredKeys table := by
    intro alive new
    have isOld := (spent.resolve_left alive).resolve_left new
    refine ⟨isOld, fun ignored => ?_⟩
    rcases blocked next ignored with isStart | dead
    · exact barren.other next isOld ignored isStart
    · exact alive dead
  have visited := @visit_spec table query stack plain next
  revert visited
  generalize visit table query stack plain next = result
  intro visited
  cases visited with
  | dead => exact ⟨[], plain, rfl, rfl, nofun⟩
  | revisited => exact ⟨[], plain, rfl, rfl, nofun⟩
  | closed alive onPath ends =>
      rw [endsOnRevisit_eq_false sought] at ends
      cases ends
  | met alive new isMet =>
      obtain ⟨isOld, passes⟩ := fruitless alive new
      rw [(barren.fruitless next isOld passes).1] at isMet
      cases isMet
  | broken error alive new unmet failed =>
      obtain ⟨isOld, passes⟩ := fruitless alive new
      obtain ⟨-, keys, neighbours, -⟩ := barren.fruitless next isOld passes
      cases failed.symm.trans neighbours
  | entered keys alive new unmet neighbours =>
      obtain ⟨isOld, passes⟩ := fruitless alive new
      obtain ⟨-, others, sameNeighbours, leads⟩ := barren.fruitless next isOld passes
      cases neighbours.symm.trans sameNeighbours
      refine ⟨[⟨next, keys⟩], plain.push next, rfl, rfl, fun frame member => ?_⟩
      rw [List.mem_singleton.mp member]
      exact ⟨isOld, leads⟩

/-- Two searches take the same step: they end in the same way, or the one goes on as the shadow of
the other. -/
inductive Abreast (start : Key) (old : List Key) : Step → Step → Prop
  | halt (outcome : Outcome) {final sharedFinal : Trail} (same : final.found = sharedFinal.found) :
      Abreast start old (.halt final outcome) (.halt sharedFinal outcome)
  | go (detour after : List Frame) {later sharedLater : Trail}
      (shadows : Shadows start old detour later sharedLater) :
      Abreast start old (.go (detour ++ after) later) (.go after sharedLater)

namespace Shadows

/-- A key that both searches try; it begins a detour if it is old. -/
theorem visit (shadows : Shadows start old [] plain shared) (barren : Barren table query start old)
    (blocked : ∀ key ∈ query.ignoredKeys table, key = start ∨ key ∈ plain.dead)
    (sought : query.goal = .function finish) (standing : Standing stack plain)
    (sharedStanding : Standing stack shared) (next : Key) :
    Abreast start old (Search.visit table query stack plain next)
      (Search.visit table query stack shared next) := by
  have sameFound : plain.found = shared.found := standing.keys.trans sharedStanding.keys.symm
  by_cases sharedDead : next ∈ shared.dead
  · have spent := (shadows.dead next).mp sharedDead
    obtain ⟨detour, later, visited, sameDead, aside⟩ :=
      visit_spent barren blocked sought (spent.imp_right .inr) stack
    have passed : Search.visit table query stack shared next = .go stack shared := by
      rw [Search.visit, if_pos (List.contains_iff_mem.mpr sharedDead)]
    rw [visited, passed]
    refine .go detour stack ⟨aside, fun key => ?_⟩
    rw [sameDead]
    exact shadows.dead key
  · have alive : next ∉ plain.dead := fun dead => sharedDead ((shadows.dead next).mpr (.inl dead))
    have samePath : plain.onPath.contains next = shared.onPath.contains next := by
      rw [Bool.eq_iff_iff, List.contains_iff_mem, List.contains_iff_mem, standing.onPath,
        sharedStanding.onPath, sameFound]
    have samePush : (plain.push next).found = (shared.push next).found :=
      congrArg (· ++ [next]) sameFound
    unfold Search.visit
    rw [if_neg (mt List.contains_iff_mem.mp alive), if_neg (mt List.contains_iff_mem.mp sharedDead),
      samePath, endsOnRevisit_eq_false sought]
    split
    · exact .go [] stack shadows
    · split
      · exact .halt .success samePush
      · split
        · next error _ => exact .halt (.broken error) samePush
        · exact .go [] _ ⟨nofun, shadows.dead⟩

/-- One step of the search on its own is a step of its detour, or the shared search takes the same
step. -/
theorem step (shadows : Shadows start old detour plain shared)
    (barren : Barren table query start old) (sought : query.goal = .function finish)
    (walking : Walking table query start (detour ++ stack) plain)
    (searched : start ∈ plain.dead ∨ start ∈ plain.found) (standing : Standing stack shared) :
    (∃ further later,
        Search.step table query (detour ++ stack) plain = .go (further ++ stack) later ∧
        Shadows start old further later shared) ∨
      Abreast start old (Search.step table query (detour ++ stack) plain)
        (Search.step table query stack shared) := by
  match detour, stack with
  | [], [] => exact .inr (.halt .exhausted (walking.keys.trans standing.keys.symm))
  | [], ⟨key, []⟩ :: below =>
      refine .inr (.go [] below ⟨nofun, fun other => ?_⟩)
      rw [walking.toStanding.retire_eq, standing.retire_eq]
      simp only [List.mem_cons, shadows.dead, or_assoc]
  | [], ⟨key, next :: rest⟩ :: below =>
      exact .inr (shadows.visit barren walking.blocked sought walking.tried.toStanding
        standing.tried next)
  | ⟨key, []⟩ :: detour, stack =>
      obtain ⟨isOld, -⟩ := shadows.aside _ List.mem_cons_self
      refine .inl ⟨detour, plain.retire, rfl,
        fun frame member => shadows.aside frame (List.mem_cons_of_mem _ member), fun other => ?_⟩
      rw [walking.toStanding.retire_eq, shadows.dead, List.mem_cons]
      constructor
      · rintro (dead | otherOld)
        · exact .inl (.inr dead)
        · exact .inr otherOld
      · rintro ((rfl | dead) | otherOld)
        · exact .inr isOld
        · exact .inl dead
        · exact .inr otherOld
  | ⟨key, next :: rest⟩ :: detour, stack =>
      obtain ⟨isOld, untried⟩ := shadows.aside _ List.mem_cons_self
      have spent : next ∈ plain.dead ∨ next ∈ plain.onPath ∨ next ∈ old := by
        rcases untried next List.mem_cons_self with nextOld | rfl
        · exact .inr (.inr nextOld)
        · rcases searched with dead | onPath
          · exact .inl dead
          · exact .inr (.inl ((walking.onPath next).mpr onPath))
      obtain ⟨further, later, visited, sameDead, aside⟩ :=
        visit_spent barren walking.blocked sought spent (⟨key, rest⟩ :: (detour ++ stack))
      refine .inl ⟨further ++ ⟨key, rest⟩ :: detour, later, ?_, fun frame member => ?_, ?_⟩
      · rw [List.append_assoc]
        exact visited
      · rcases List.mem_append.mp member with new | known
        · exact aside frame new
        · rcases List.mem_cons.mp known with rfl | lower
          · exact ⟨isOld, fun other listed => untried other (List.mem_cons_of_mem _ listed)⟩
          · exact shadows.aside frame (List.mem_cons_of_mem _ lower)
      · rw [sameDead]
        exact shadows.dead

/-- Both searches end in the same way. -/
theorem run (shadows : Shadows start old detour plain shared)
    (barren : Barren table query start old) (sought : query.goal = .function finish)
    (walking : Walking table query start (detour ++ stack) plain)
    (searched : start ∈ plain.dead ∨ start ∈ plain.found) (standing : Standing stack shared) :
    (Search.run table query (detour ++ stack) plain).2 = (Search.run table query stack shared).2 ∧
      (Search.run table query (detour ++ stack) plain).1.found =
        (Search.run table query stack shared).1.found := by
  -- by induction on the search on its own, since the shared one may stand still
  generalize whole : detour ++ stack = frames at walking
  induction frames, plain using run.induct table query generalizing detour stack shared with
  | case1 frames plain final outcome stopped =>
      subst whole
      rcases shadows.step barren sought walking searched standing with ⟨_, _, moved, -⟩ | abreast
      · cases stopped.symm.trans moved
      · rw [run_of_halt stopped]
        rw [stopped] at abreast
        generalize halted : Search.step table query stack shared = result at abreast
        cases abreast with
        | halt _ same =>
            rw [run_of_halt halted]
            exact ⟨rfl, same⟩
  | case2 frames plain after later moved induction =>
      subst whole
      have advance := @step_spec table query (detour ++ stack) plain
      rw [moved] at advance
      have laterWalking := walking.step advance
      have laterSearched := searched_step searched walking.toStanding advance
      rw [run_of_go moved]
      rcases shadows.step barren sought walking searched standing with
        ⟨further, _, movedAgain, shadowed⟩ | abreast
      · cases moved.symm.trans movedAgain
        exact induction shadowed laterSearched standing rfl laterWalking
      · rw [moved] at abreast
        have sharedAdvance := @step_spec table query stack shared
        generalize sharedMoved : Search.step table query stack shared = result
          at abreast sharedAdvance
        cases abreast with
        | go further sharedAfter shadowed =>
            rw [run_of_go sharedMoved]
            exact induction shadowed laterSearched (standing.step sharedAdvance) rfl laterWalking

end Shadows

/-! ## From start to start -/

theorem walking_ownTrail (table : Table) (query : Query) (start : Key) :
    Walking table query start [] (ownTrail table query start) where
  toStanding := .empty rfl rfl
  head := nofun
  chain := .nil
  tries := nofun
  blocked key ignored := by
    by_cases isStart : key = start
    · exact .inl isStart
    · exact .inr (List.mem_filter.mpr ⟨ignored, by simpa using isStart⟩)

/-- A start gives the same answer on its own as after others that found nothing. -/
theorem alone_eq (spent : Spent table query trail.dead) (found : trail.found = [])
    (onPath : trail.onPath = []) (sought : query.goal = .function finish) :
    (alone table query start).2 =
        (traverse table query start (opened table query start trail)).2 ∧
      (alone table query start).1.found =
        (traverse table query start (opened table query start trail)).1.found := by
  have walking := walking_ownTrail table query start
  have standing : Standing [] (opened table query start trail) :=
    (walking_opened spent.ignored found onPath).toStanding
  have barren : Barren table query start (opened table query start trail).dead := spent.barren
  have shadows : Shadows start (opened table query start trail).dead []
      (ownTrail table query start) (opened table query start trail) := by
    refine ⟨nofun, fun key => ⟨.inr, ?_⟩⟩
    rintro (dead | isOld)
    · obtain ⟨ignored, isOther⟩ := List.mem_filter.mp dead
      exact mem_dead_opened_iff.mpr ⟨spent.ignored key ignored, fun _ => by simpa using isOther⟩
    · exact isOld
  have abreast := shadows.visit barren walking.blocked sought walking.toStanding standing start
  have plainVisit := @visit_spec table query [] (ownTrail table query start) start
  have sharedVisit := @visit_spec table query [] (opened table query start trail) start
  unfold alone traverse
  generalize visit table query [] (ownTrail table query start) start = plainResult
    at abreast plainVisit
  generalize visit table query [] (opened table query start trail) start = sharedResult
    at abreast sharedVisit
  cases abreast with
  | halt outcome same => exact ⟨rfl, same⟩
  | go detour after shadowed =>
      exact shadowed.run barren sought (walking.visit ⟨fun _ => rfl, nofun⟩ plainVisit)
        (searched_visit walking.toStanding (.inr (.inr rfl)) plainVisit)
        (standing.visit sharedVisit)

/-- What a search that ended in a certain way answers. -/
def answer : Trail × Outcome → Except SearchError (List Key)
  | (trail, .success) => .ok trail.found
  | (_, .exhausted) => .ok []
  | (_, .broken error) => .error error

theorem answer_fromCandidates {starts : List Key} (spent : Spent table query trail.dead)
    (found : trail.found = []) (onPath : trail.onPath = [])
    (sought : query.goal = .function finish) :
    answer (fromCandidates table query starts trail) = eachAlone table query starts := by
  induction starts generalizing trail with
  | nil => rfl
  | cons start starts induction =>
      obtain ⟨sameOutcome, sameFound⟩ := @alone_eq table query finish start trail spent found
        onPath sought
      have spentAfter := @Spent.traverse table query finish start trail spent found onPath sought
      unfold eachAlone
      cases onItsOwn : alone table query start with
      | mk plain outcome =>
          cases result : traverse table query start (opened table query start trail) with
          | mk final sharedOutcome =>
              rw [onItsOwn, result] at sameOutcome sameFound
              rw [result] at spentAfter
              dsimp only at sameOutcome sameFound spentAfter
              subst sameOutcome
              cases outcome with
              | success =>
                  rw [fromCandidates_of_success result]
                  exact congrArg Except.ok sameFound.symm
              | exhausted =>
                  rw [fromCandidates_of_exhausted result]
                  exact @induction final.restart (spentAfter rfl) rfl rfl
              | broken error =>
                  unfold opened at result
                  simp only [fromCandidates, result]
                  rfl

end Search

/-- The dead keys that a path search keeps from start to start do not change its answer: it is the
answer of the first start that succeeds or cannot go on when every start is searched from on its
own, with the ignored keys dead except for the start. -/
theorem Table.search_eq_eachAlone {query : Query} {finish : String → Bool}
    (sought : query.goal = .function finish) (table : Table) :
    (table.search query).keys = Search.eachAlone table query (query.candidates table) := by
  have answered := @Search.answer_fromCandidates table query finish
    { dead := query.ignoredKeys table } (query.candidates table) Search.spent_ignoredKeys rfl rfl
    sought
  rw [← answered, search]
  cases Search.fromCandidates table query (query.candidates table)
      { dead := query.ignoredKeys table } with
  | mk final outcome => cases outcome <;> rfl

/-- Two functions that call each other, and a third that calls one of them and a fourth, which calls
a function without record. -/
def danglingCaller : Table :=
  .ofRecords
    [("a", { name := "a", kind := some .function, calls := ["b"] }),
      ("b", { name := "b", kind := some .function, calls := ["a"] }),
      ("c", { name := "c", kind := some .function, calls := ["b", "d"] }),
      ("d", { name := "d", kind := some .function, calls := ["lost"] })]

/-- Ask for a way from `a`, although it is ignored, or from `c`. -/
def fromTwo (finish : String → Bool) : Query :=
  { start := fun name => name == "a" || name == "c", goal := .function finish, ignore := ["a"] }

/-- The second start passes over `b`, which the first has left behind, to a path or to an edge that
leads to no record; on its own it enters `b` first. -/
theorem search_eq_eachAlone_danglingCaller :
    (fromTwo (· == "d")).candidates danglingCaller = ["a", "c"] ∧
      (Search.traverse danglingCaller (fromTwo (· == "d")) "c"
        (Search.ownTrail danglingCaller (fromTwo (· == "d")) "c")).1.dead = ["b", "a"] ∧
      Search.eachAlone danglingCaller (fromTwo (· == "d")) ["a", "c"] = .ok ["c", "d"] ∧
      Search.eachAlone danglingCaller (fromTwo (· == "e")) ["a", "c"] =
        .error (.unresolved "d" "lost" .calls) := by
  have candidates : ∀ finish, (fromTwo finish).candidates danglingCaller = ["a", "c"] := by
    intro finish
    cbv
  have path : (danglingCaller.search (fromTwo (· == "d"))).keys = .ok ["c", "d"] := by cbv
  have failure : (danglingCaller.search (fromTwo (· == "e"))).keys =
      .error (.unresolved "d" "lost" .calls) := by cbv
  rw [Table.search_eq_eachAlone rfl, candidates] at path failure
  exact ⟨candidates _, by cbv, path, failure⟩

end CallGraph
