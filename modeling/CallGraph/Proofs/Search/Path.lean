import CallGraph.Proofs.Search.Trail

/-!
# Paths

A path search answers with a path from the first start that has one, and with nothing only if no
start has one.  That no path is missed rests on what is known of dead keys: from a dead key that is
not ignored, edges lead to dead keys, to the current path and to ignored keys only, and it is not
what is looked for.  An ignored start that is searched from nevertheless does not spoil this, since
no path passes it again.
-/

namespace CallGraph

/-- A key is that of a function with an accepted name. -/
def Table.HasFunction (table : Table) (accepts : String → Bool) (key : Key) : Prop :=
  ∃ record, table.get? key = some record ∧ record.isFunctionNamed accepts = true

namespace Query

variable {query : Query} {table : Table} {key : Key}

theorem mem_candidates_iff : key ∈ query.candidates table ↔ table.HasFunction query.start key := by
  simp only [candidates, List.mem_map, List.mem_filter, Prod.exists, exists_and_right,
    exists_eq_right, Table.mem_entries_iff, Table.HasFunction]

theorem mem_ignoredKeys_iff :
    key ∈ query.ignoredKeys table ↔
      ∃ record, table.get? key = some record ∧ query.ignores key record = true := by
  simp only [ignoredKeys, List.mem_map, List.mem_filter, Prod.exists, exists_and_right,
    exists_eq_right, Table.mem_entries_iff]

theorem isMet_iff {finish : String → Bool} (sought : query.goal = .function finish) :
    query.isMet table key = true ↔ table.HasFunction finish key := by
  simp only [isMet, sought, Table.HasFunction]
  cases table.get? key <;> simp

end Query

/-- A path from a start: it follows the edges of the direction to a function with an accepted name,
without repetition and without ignored keys after the start. -/
structure IsPath (table : Table) (query : Query) (finish : String → Bool) (start : Key)
    (keys : List Key) : Prop where
  /-- The first key is the start. -/
  head : keys.head? = some start
  /-- The start is a function with an accepted name. -/
  starts : table.HasFunction query.start start
  /-- The last key is a function with an accepted name. -/
  arrives : ∃ key, keys.getLast? = some key ∧ table.HasFunction finish key
  /-- Each key is followed by one of its neighbours. -/
  chain : keys.IsChain (table.Leads query.direction)
  /-- No key occurs twice. -/
  distinct : keys.Nodup
  /-- No key after the start is ignored. -/
  passes : ∀ key ∈ keys.tail, ∀ record, table.get? key = some record →
    query.ignores key record = false

namespace Search

variable {table : Table} {query : Query} {finish : String → Bool} {start key next : Key}
  {stack after below : List Frame} {trail later : Trail} {rest pending : List Key}

/-! ## What is known of dead keys -/

/-- Nothing is left to be found through a key: it is dead, on the path or ignored. -/
def Covered (table : Table) (query : Query) (trail : Trail) (key : Key) : Prop :=
  key ∈ trail.dead ∨ key ∈ trail.found ∨ key ∈ query.ignoredKeys table

/-- What a search for a function from one start knows while it runs, where `pending` are the keys
that are about to be tried. -/
structure Clearing (table : Table) (query : Query) (start : Key) (pending : List Key)
    (stack : List Frame) (trail : Trail) : Prop where
  /-- The start is searched from. -/
  searched : start ∈ trail.dead ∨ start ∈ trail.found ∨ start ∈ pending
  /-- No key of the path is what is looked for. -/
  unmet : ∀ key ∈ trail.found, query.isMet table key = false
  /-- A neighbour of a key of the path is covered or still to be tried. -/
  tried : ∀ frame ∈ stack, ∀ next, table.Leads query.direction frame.key next →
    next ∈ frame.rest ∨ next ∈ pending ∨ Covered table query trail next
  /-- A dead key is not what is looked for, and its neighbours are covered; of the ignored keys
  this is known of the start alone. -/
  settled : ∀ key ∈ trail.dead, (key ∈ query.ignoredKeys table → key = start) →
    query.isMet table key = false ∧
      ∀ next, table.Leads query.direction key next → Covered table query trail next

namespace Clearing

/-- Taking a neighbour to try it. -/
theorem take (clearing : Clearing table query start [] (⟨key, next :: rest⟩ :: below) trail) :
    Clearing table query start [next] (⟨key, rest⟩ :: below) trail where
  searched := clearing.searched.imp_right (.imp_right nofun)
  unmet := clearing.unmet
  tried frame member other leads := by
    rcases List.mem_cons.mp member with rfl | lower
    · rcases clearing.tried _ List.mem_cons_self other leads with listed | taken | covered
      · rcases List.mem_cons.mp listed with rfl | later
        · exact .inr (.inl List.mem_cons_self)
        · exact .inl later
      · cases taken
      · exact .inr (.inr covered)
    · rcases clearing.tried _ (List.mem_cons_of_mem _ lower) other leads with
        listed | taken | covered
      · exact .inl listed
      · cases taken
      · exact .inr (.inr covered)
  settled := clearing.settled

/-- A key that is covered need not be tried. -/
theorem pass (clearing : Clearing table query start [next] stack trail)
    (covered : next ∈ trail.dead ∨ next ∈ trail.found) :
    Clearing table query start [] stack trail where
  searched := by
    rcases clearing.searched with dead | found | taken
    · exact .inl dead
    · exact .inr (.inl found)
    · rw [List.mem_singleton.mp taken]
      exact covered.imp_right .inl
  unmet := clearing.unmet
  tried frame member other leads := by
    rcases clearing.tried frame member other leads with listed | taken | known
    · exact .inl listed
    · rw [List.mem_singleton.mp taken]
      exact .inr (.inr (covered.imp_right .inl))
    · exact .inr (.inr known)
  settled := clearing.settled

/-- A key that is entered is covered, and its neighbours are still to be tried. -/
theorem enter (clearing : Clearing table query start [next] stack trail) {keys : List Key}
    (unmet : query.isMet table next = false)
    (neighbours : table.neighbours query.direction next = .ok keys) :
    Clearing table query start [] (⟨next, keys⟩ :: stack) (trail.push next) := by
  have grows : ∀ key, Covered table query trail key ∨ key = next →
      Covered table query (trail.push next) key := by
    rintro key ((dead | found | ignored) | rfl)
    · exact .inl dead
    · exact .inr (.inl (List.mem_append_left _ found))
    · exact .inr (.inr ignored)
    · exact .inr (.inl (List.mem_append_right _ List.mem_cons_self))
  constructor
  case searched =>
    rcases clearing.searched with dead | found | taken
    · exact .inl dead
    · exact .inr (.inl (List.mem_append_left _ found))
    · exact .inr (.inl (List.mem_append_right _ taken))
  case unmet =>
    intro key member
    rcases List.mem_append.mp member with old | final
    · exact clearing.unmet key old
    · rw [List.mem_singleton.mp final]
      exact unmet
  case tried =>
    intro frame member other leads
    rcases List.mem_cons.mp member with rfl | lower
    · exact .inl ((Table.mem_neighbours_iff neighbours).mpr leads)
    · rcases clearing.tried frame lower other leads with listed | taken | covered
      · exact .inl listed
      · exact .inr (.inr (grows other (.inr (List.mem_singleton.mp taken))))
      · exact .inr (.inr (grows other (.inl covered)))
  case settled =>
    intro key dead eligible
    obtain ⟨unmetKey, covered⟩ := clearing.settled key dead eligible
    exact ⟨unmetKey, fun other leads => grows other (.inl (covered other leads))⟩

theorem visit (clearing : Clearing table query start [next] stack trail)
    (standing : Standing stack trail)
    (visited : Visit table query stack trail next (.go after later)) :
    Clearing table query start [] after later := by
  cases visited with
  | dead isDead => exact clearing.pass (.inl isDead)
  | revisited alive onPath => exact clearing.pass (.inr ((standing.onPath next).mp onPath))
  | entered keys alive new unmet neighbours => exact clearing.enter unmet neighbours

/-- A key all of whose neighbours are tried is settled. -/
theorem retire (clearing : Clearing table query start [] (⟨key, []⟩ :: below) trail)
    (standing : Standing (⟨key, []⟩ :: below) trail) :
    Clearing table query start [] below trail.retire := by
  have found := standing.found_cons
  rw [standing.retire_eq]
  have moves : ∀ other, other ∈ trail.found →
      other ∈ key :: trail.dead ∨ other ∈ (below.map Frame.key).reverse := by
    intro other member
    rw [found] at member
    rcases List.mem_append.mp member with lower | last
    · exact .inr lower
    · exact .inl (List.mem_singleton.mp last ▸ List.mem_cons_self)
  have covers : ∀ {other}, Covered table query trail other →
      other ∈ key :: trail.dead ∨ other ∈ (below.map Frame.key).reverse ∨
        other ∈ query.ignoredKeys table := by
    rintro other (dead | onPath | ignored)
    · exact .inl (List.mem_cons_of_mem _ dead)
    · exact (moves other onPath).imp_right .inl
    · exact .inr (.inr ignored)
  constructor
  case searched =>
    rcases clearing.searched with dead | onPath | taken
    · exact .inl (List.mem_cons_of_mem _ dead)
    · exact (moves start onPath).imp_right .inl
    · cases taken
  case unmet =>
    intro other member
    apply clearing.unmet other
    rw [found]
    exact List.mem_append_left _ member
  case tried =>
    intro frame member other leads
    rcases clearing.tried frame (List.mem_cons_of_mem _ member) other leads with
      listed | taken | covered
    · exact .inl listed
    · cases taken
    · exact .inr (.inr (covers covered))
  case settled =>
    intro other dead eligible
    rcases List.mem_cons.mp dead with rfl | old
    · refine ⟨clearing.unmet other (by simp [found]), fun target leads => covers ?_⟩
      rcases clearing.tried _ List.mem_cons_self target leads with listed | taken | covered
      · cases listed
      · cases taken
      · exact covered
    · obtain ⟨unmet, covered⟩ := clearing.settled other old eligible
      exact ⟨unmet, fun target leads => covers (covered target leads)⟩

/-- One step keeps what is known. -/
theorem step (clearing : Clearing table query start [] stack trail)
    (standing : Standing stack trail)
    (advance : Advance table query stack trail (.go after later)) :
    Clearing table query start [] after later := by
  cases advance with
  | retired key below trail => exact clearing.retire standing
  | tried key next rest below trail visited => exact clearing.take.visit standing.tried visited

end Clearing

/-! ## Between two starts -/

/-- What is known of the dead keys when no search is under way. -/
structure Settled (table : Table) (query : Query) (dead : List Key) : Prop where
  /-- Ignored keys are dead. -/
  ignored : ∀ key ∈ query.ignoredKeys table, key ∈ dead
  /-- Any other dead key is not what is looked for, and its neighbours are dead. -/
  closed : ∀ key ∈ dead, key ∉ query.ignoredKeys table →
    query.isMet table key = false ∧
      ∀ next, table.Leads query.direction key next → next ∈ dead

theorem settled_ignoredKeys : Settled table query (query.ignoredKeys table) :=
  ⟨fun _ member => member, fun _ member other => absurd member other⟩

/-- A chain from a dead key stays among dead keys as long as it passes no ignored one. -/
theorem dead_of_chain {dead : List Key} {first : Key} {keys : List Key}
    (closed : ∀ key ∈ dead, (key ∈ query.ignoredKeys table → key = start) →
      ∀ next, table.Leads query.direction key next → next ∈ dead)
    (firstDead : first ∈ dead) (eligible : first ∈ query.ignoredKeys table → first = start)
    (chain : (first :: keys).IsChain (table.Leads query.direction))
    (passes : ∀ key ∈ keys, key ∉ query.ignoredKeys table) :
    ∀ key ∈ first :: keys, key ∈ dead ∧ (key ∈ query.ignoredKeys table → key = start) := by
  induction keys generalizing first with
  | nil =>
      intro key member
      rw [List.mem_singleton.mp member]
      exact ⟨firstDead, eligible⟩
  | cons second keys induction =>
      rw [List.isChain_cons_cons] at chain
      have secondPasses := passes second List.mem_cons_self
      have rest := induction (closed first firstDead eligible second chain.1)
        (fun ignored => absurd ignored secondPasses) chain.2
        fun key member => passes key (List.mem_cons_of_mem _ member)
      intro key member
      rcases List.mem_cons.mp member with rfl | later
      · exact ⟨firstDead, eligible⟩
      · exact rest key later

/-- When a search is exhausted, the dead keys are settled and the start has no path. -/
theorem Clearing.exhausted (clearing : Clearing table query start [] [] trail)
    (walking : Walking table query start [] trail) (sought : query.goal = .function finish) :
    Settled table query trail.dead ∧ ∀ keys, ¬ IsPath table query finish start keys := by
  have found : trail.found = [] := walking.keys
  have startDead : start ∈ trail.dead := by
    simpa [found] using clearing.searched
  have ignoredDead : ∀ key ∈ query.ignoredKeys table, key ∈ trail.dead := by
    intro key ignored
    rcases walking.blocked key ignored with rfl | dead
    · exact startDead
    · exact dead
  have covered : ∀ key, Covered table query trail key → key ∈ trail.dead := by
    rintro key (dead | onPath | ignored)
    · exact dead
    · simp [found] at onPath
    · exact ignoredDead key ignored
  refine ⟨⟨ignoredDead, fun key dead passes => ?_⟩, fun keys path => ?_⟩
  · obtain ⟨unmet, settled⟩ :=
      clearing.settled key dead fun ignored => absurd ignored passes
    exact ⟨unmet, fun next leads => covered next (settled next leads)⟩
  · obtain ⟨others, rfl⟩ := List.head?_eq_some_iff.mp path.head
    obtain ⟨last, isLast, met⟩ := path.arrives
    have lastDead := dead_of_chain
      (fun key dead eligible next leads =>
        covered next ((clearing.settled key dead eligible).2 next leads))
      startDead (fun _ => rfl) path.chain (fun key member ignored => ?_) last
      (List.mem_of_getLast? isLast)
    · have unmet := (clearing.settled last lastDead.1 lastDead.2).1
      rw [(Query.isMet_iff sought).mpr met] at unmet
      cases unmet
    · obtain ⟨record, present, ignores⟩ := Query.mem_ignoredKeys_iff.mp ignored
      rw [path.passes key member record present] at ignores
      cases ignores

/-! ## From start to start -/

/-- In a closed table every key that may come next has its neighbours. -/
theorem Follows.exists_neighbours (follows : Follows table query start stack next)
    (closed : table.ClosedUnder query.direction) (starts : table.HasFunction query.start start) :
    ∃ keys, table.neighbours query.direction next = .ok keys := by
  have present : table.contains next = true := by
    cases stack with
    | nil =>
        obtain ⟨record, found, -⟩ := starts
        rw [follows.first rfl]
        exact (table.contains_iff start).mpr ⟨record, found⟩
    | cons frame below => exact closed frame.key next (follows.leads frame rfl)
  exact closed.exists_neighbours present

/-- Whatever stops a search for a function in a closed table ends a path. -/
theorem isPath_of_halt (walking : Walking table query start stack trail)
    (follows : Follows table query start stack next) (sought : query.goal = .function finish)
    (closed : table.ClosedUnder query.direction) (starts : table.HasFunction query.start start)
    {final : Trail} {outcome : Outcome}
    (visited : Visit table query stack trail next (.halt final outcome)) :
    outcome = .success ∧ IsPath table query finish start final.found := by
  cases visited with
  | closed alive onPath ends => simp [Query.endsOnRevisit, sought] at ends
  | met alive new isMet =>
      obtain ⟨head, chain⟩ := walking.append follows
      refine ⟨rfl, head, starts, ⟨next, by simp [Trail.push], (Query.isMet_iff sought).mp isMet⟩,
        chain, (walking.toStanding.push alive new []).distinct, fun key member record present => ?_⟩
      have passes := walking.not_ignored follows alive new key member
      rw [Query.mem_ignoredKeys_iff] at passes
      cases ignores : query.ignores key record with
      | false => rfl
      | true => exact absurd ⟨record, present, ignores⟩ passes
  | broken error alive new unmet failed =>
      obtain ⟨keys, neighbours⟩ := follows.exists_neighbours closed starts
      rw [failed] at neighbours
      cases neighbours

/-- How a search from one start ends: with a path, or settled and without one. -/
def Concluded (table : Table) (query : Query) (finish : String → Bool) (start : Key)
    (final : Trail) (outcome : Outcome) : Prop :=
  outcome = .success ∧ IsPath table query finish start final.found ∨
    outcome = .exhausted ∧ Settled table query final.dead ∧
      ∀ keys, ¬ IsPath table query finish start keys

theorem concluded_traverse (walking : Walking table query start [] trail)
    (clearing : Clearing table query start [start] [] trail)
    (sought : query.goal = .function finish) (closed : table.ClosedUnder query.direction)
    (starts : table.HasFunction query.start start) :
    Concluded table query finish start (traverse table query start trail).1
      (traverse table query start trail).2 := by
  have follows : Follows table query start [] start := ⟨fun _ => rfl, nofun⟩
  refine traverse_invariant (fun stack trail =>
    Walking table query start stack trail ∧ Clearing table query start [] stack trail) ?_ ?_ ?_ ?_
  · intro after later visited
    exact ⟨walking.visit follows visited, clearing.visit walking.toStanding visited⟩
  · intro final outcome visited
    exact .inl (isPath_of_halt walking follows sought closed starts visited)
  · rintro stack trail after later ⟨walking, clearing⟩ advance
    exact ⟨walking.step advance, clearing.step walking.toStanding advance⟩
  · rintro stack trail final outcome ⟨walking, clearing⟩ advance
    cases advance with
    | exhausted => exact .inr ⟨rfl, clearing.exhausted walking sought⟩
    | tried key next rest below _ visited =>
        exact .inl (isPath_of_halt walking.tried walking.follows sought closed starts visited)

/-- The trail with which a start is searched from: an ignored one is taken back from the dead. -/
def opened (table : Table) (query : Query) (start : Key) (trail : Trail) : Trail :=
  if (query.ignoredKeys table).contains start then trail.readmit query.ignore start else trail

theorem mem_dead_opened_iff :
    key ∈ (opened table query start trail).dead ↔
      key ∈ trail.dead ∧ (start ∈ query.ignoredKeys table → key ≠ start) := by
  unfold opened
  split
  · next ignored =>
      rw [List.contains_iff_mem] at ignored
      simp [Trail.readmit, ignored]
  · next passes =>
      rw [List.contains_iff_mem] at passes
      simp [passes]

theorem found_opened (empty : trail.found = []) : (opened table query start trail).found = [] := by
  unfold opened
  split <;> exact empty

theorem onPath_opened (empty : trail.onPath = []) :
    (opened table query start trail).onPath = [] := by
  unfold opened
  split <;> exact empty

theorem walking_opened (ignoredDead : ∀ key ∈ query.ignoredKeys table, key ∈ trail.dead)
    (found : trail.found = []) (onPath : trail.onPath = []) :
    Walking table query start [] (opened table query start trail) where
  toStanding := .empty (found_opened found) (onPath_opened onPath)
  head key first := by simp [found_opened found] at first
  chain := by
    rw [found_opened found]
    exact .nil
  tries frame member := by cases member
  blocked key ignored := by
    by_cases isStart : key = start
    · exact .inl isStart
    · exact .inr (mem_dead_opened_iff.mpr ⟨ignoredDead key ignored, fun _ => isStart⟩)

theorem Settled.clearing (settled : Settled table query trail.dead) (found : trail.found = []) :
    Clearing table query start [start] [] (opened table query start trail) where
  searched := .inr (.inr List.mem_cons_self)
  unmet key member := by simp [found_opened found] at member
  tried frame member := by cases member
  settled key dead eligible := by
    obtain ⟨wasDead, isOther⟩ := mem_dead_opened_iff.mp dead
    have passes : key ∉ query.ignoredKeys table := by
      intro ignored
      obtain rfl := eligible ignored
      exact isOther ignored rfl
    obtain ⟨unmet, closed⟩ := settled.closed key wasDead passes
    refine ⟨unmet, fun next leads => ?_⟩
    by_cases isStart : next ∈ query.ignoredKeys table
    · exact .inr (.inr isStart)
    · refine .inl (mem_dead_opened_iff.mpr ⟨closed next leads, ?_⟩)
      rintro ignored rfl
      exact isStart ignored

theorem fromCandidates_of_success {starts : List Key} {final : Trail}
    (result : traverse table query start (opened table query start trail) = (final, .success)) :
    fromCandidates table query (start :: starts) trail = (final, .success) := by
  unfold opened at result
  simp only [fromCandidates, result]

theorem fromCandidates_of_exhausted {starts : List Key} {final : Trail}
    (result : traverse table query start (opened table query start trail) = (final, .exhausted)) :
    fromCandidates table query (start :: starts) trail =
      fromCandidates table query starts final.restart := by
  unfold opened at result
  simp only [fromCandidates, result]

/-- How a search from several starts ends: with a path from the first that has one, or without. -/
theorem concluded_fromCandidates {starts : List Key} (settled : Settled table query trail.dead)
    (found : trail.found = []) (onPath : trail.onPath = [])
    (sought : query.goal = .function finish) (closed : table.ClosedUnder query.direction)
    (functions : ∀ start ∈ starts, table.HasFunction query.start start) :
    (∃ before first after, starts = before ++ first :: after ∧
        (fromCandidates table query starts trail).2 = .success ∧
        IsPath table query finish first (fromCandidates table query starts trail).1.found ∧
        ∀ earlier ∈ before, ∀ keys, ¬ IsPath table query finish earlier keys) ∨
      (fromCandidates table query starts trail).2 = .exhausted ∧
        ∀ start ∈ starts, ∀ keys, ¬ IsPath table query finish start keys := by
  induction starts generalizing trail with
  | nil => exact .inr ⟨rfl, nofun⟩
  | cons start starts induction =>
      have concluded := concluded_traverse (walking_opened settled.ignored found onPath)
        (settled.clearing found) sought closed (functions start List.mem_cons_self)
      cases result : traverse table query start (opened table query start trail) with
      | mk final outcome =>
          rw [result] at concluded
          rcases concluded with ⟨rfl, path⟩ | ⟨rfl, settledAfter, none⟩
          · rw [fromCandidates_of_success result]
            exact .inl ⟨[], start, starts, rfl, rfl, path, nofun⟩
          · rw [fromCandidates_of_exhausted result]
            rcases @induction final.restart settledAfter rfl rfl fun later member =>
              functions later (List.mem_cons_of_mem _ member) with
              ⟨before, first, after, split, success, path, earlier⟩ | ⟨exhausted, noneLater⟩
            · refine .inl ⟨start :: before, first, after, by rw [split]; rfl, success, path, ?_⟩
              intro other member
              rcases List.mem_cons.mp member with rfl | between
              · exact none
              · exact earlier other between
            · refine .inr ⟨exhausted, fun other member => ?_⟩
              rcases List.mem_cons.mp member with rfl | later
              · exact none
              · exact noneLater other later

end Search

/-- A search for a function in a table whose edges all lead to records returns.  A path that it
returns is one from the first start that has any, and it returns none only if no start has any. -/
theorem Table.search_path {table : Table} {query : Query} {finish : String → Bool}
    (sought : query.goal = .function finish) (closed : table.ClosedUnder query.direction) :
    ∃ keys, (table.search query).keys = .ok keys ∧
      (keys ≠ [] → ∃ before first after, query.candidates table = before ++ first :: after ∧
        IsPath table query finish first keys ∧
        ∀ earlier ∈ before, ∀ path, ¬ IsPath table query finish earlier path) ∧
      (keys = [] ↔ ∀ start ∈ query.candidates table, ∀ path,
        ¬ IsPath table query finish start path) := by
  have concluded := @Search.concluded_fromCandidates table query finish
    { dead := query.ignoredKeys table } (query.candidates table) Search.settled_ignoredKeys rfl rfl
    sought closed fun start member => Query.mem_candidates_iff.mp member
  cases result : Search.fromCandidates table query (query.candidates table)
      { dead := query.ignoredKeys table } with
  | mk final outcome =>
      rw [result] at concluded
      rcases concluded with ⟨before, first, after, split, rfl, path, earlier⟩ | ⟨rfl, none⟩
      · have answer : (table.search query).keys = .ok final.found := by simp only [search, result]
        refine ⟨final.found, answer, fun _ => ⟨before, first, after, split, path, earlier⟩, ?_, ?_⟩
        · intro empty
          have head := path.head
          simp [empty] at head
        · intro noneAtAll
          exact absurd path (noneAtAll first (by simp [split]) final.found)
      · have answer : (table.search query).keys = .ok [] := by simp only [search, result]
        exact ⟨[], answer, fun some => absurd rfl some, fun _ => none, fun _ => rfl⟩

/-- Two functions that call each other, of which one calls a third. -/
def mutualCallers : Table :=
  .ofRecords
    [("f", { name := "f", kind := some .function, calls := ["g"] }),
      ("g", { name := "g", kind := some .function, calls := ["f", "h"] }),
      ("h", { name := "h", kind := some .function })]

/-- Ask for a way from `f`, although it is ignored, to `h`. -/
def fromIgnored : Query := { start := (· == "f"), goal := .function (· == "h"), ignore := ["f"] }

theorem search_path_mutualCallers :
    ∃ keys, (mutualCallers.search fromIgnored).keys = .ok keys ∧
      IsPath mutualCallers fromIgnored (· == "h") "f" keys := by
  have closed : mutualCallers.ClosedUnder fromIgnored.direction := by decide +kernel
  have candidates : fromIgnored.candidates mutualCallers = ["f"] := by decide +kernel
  have path : IsPath mutualCallers fromIgnored (· == "h") "f" ["f", "g", "h"] :=
    { head := rfl
      starts := Query.mem_candidates_iff.mp (by simp [candidates])
      arrives := ⟨"h", rfl, _, rfl, by decide +kernel⟩
      chain := by decide +kernel
      distinct := by decide +kernel
      passes := by
        intro key member record _
        have others : ∀ key ∈ ["g", "h"], fromIgnored.ignore.contains key = false := by
          decide +kernel
        rw [Query.ignores, others key member]
        rfl }
  obtain ⟨keys, answer, found, none⟩ := Table.search_path rfl closed
  have nonempty : keys ≠ [] := fun empty =>
    none.mp empty "f" (by simp [candidates]) _ path
  obtain ⟨before, first, after, split, isPath, -⟩ := found nonempty
  have isFirst : first = "f" := by
    have listed : first ∈ fromIgnored.candidates mutualCallers := by simp [split]
    simpa [candidates] using listed
  exact ⟨keys, answer, isFirst ▸ isPath⟩

end CallGraph
