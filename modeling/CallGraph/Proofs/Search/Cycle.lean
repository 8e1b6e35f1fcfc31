import CallGraph.Proofs.Search.Path
import Mathlib

/-!
# Cycles

A cycle search answers with a way from a start to a key that the way has passed before.  Keys are
retired in an order in which every edge leads to keys that were dead already, so no cycle lies
among retired keys, and a search that is exhausted has missed nothing but what goes through keys
that were dead when it began.

The dead keys are kept from start to start.  A start that is ignored is dead while earlier starts
are searched from and comes back to life for its own search, but the keys that lead back to it stay
dead.  A cycle is lost exactly if it is only closed by passing such keys.
-/

namespace CallGraph

open Relation

namespace Table

/-- An edge of the direction leads to a key that is not ignored. -/
def Enters (table : Table) (query : Query) (key next : Key) : Prop :=
  table.Leads query.direction key next ∧ next ∉ query.ignoredKeys table

/-- A cycle is reached from a key, and no key after it is ignored. -/
def ReachesCycle (table : Table) (query : Query) (start : Key) : Prop :=
  ∃ key, ReflTransGen (table.Enters query) start key ∧ TransGen (table.Enters query) key key

end Table

/-- A way from a start into a cycle: it follows the edges of the direction up to the first key that
it has passed before, without ignored keys other than the start. -/
structure IsLasso (table : Table) (query : Query) (start : Key) (keys : List Key) : Prop where
  /-- The first key is the start. -/
  head : keys.head? = some start
  /-- The start is a function with an accepted name. -/
  starts : table.HasFunction query.start start
  /-- Each key is followed by one of its neighbours. -/
  chain : keys.IsChain (table.Leads query.direction)
  /-- No key before the last occurs twice. -/
  distinct : keys.dropLast.Nodup
  /-- The last key was passed before. -/
  returns : ∃ key ∈ keys.dropLast, keys.getLast? = some key
  /-- No key but the start is ignored. -/
  passes : ∀ key ∈ keys, key ≠ start → key ∉ query.ignoredKeys table

section Chains

variable {link : Key → Key → Prop} {accepts : Key → Prop} {first : Key} {keys : List Key}

theorem reaches_of_isChain (chain : (first :: keys).IsChain link) :
    ∀ key ∈ first :: keys, ReflTransGen link first key := by
  induction keys generalizing first with
  | nil =>
      intro key member
      rw [List.mem_singleton.mp member]
  | cons second keys induction =>
      rw [List.isChain_cons_cons] at chain
      intro key member
      rcases List.mem_cons.mp member with rfl | later
      · exact .refl
      · exact .head chain.1 (induction chain.2 key later)

theorem isChain_into (chain : (first :: keys).IsChain link) (accepted : ∀ key ∈ keys, accepts key) :
    (first :: keys).IsChain fun key next => link key next ∧ accepts next := by
  induction keys generalizing first with
  | nil => exact .singleton first
  | cons second keys induction =>
      rw [List.isChain_cons_cons] at chain ⊢
      exact ⟨⟨chain.1, accepted second List.mem_cons_self⟩,
        induction chain.2 fun key member => accepted key (List.mem_cons_of_mem _ member)⟩

end Chains

/-- A way into a cycle reaches a key from which it comes back to that key. -/
theorem IsLasso.reaches_cycle {table : Table} {query : Query} {start : Key} {keys : List Key}
    (lasso : IsLasso table query start keys) {accepts : Key → Prop}
    (accepted : ∀ key ∈ keys.tail, accepts key) :
    ∃ key,
      ReflTransGen (fun key next => table.Leads query.direction key next ∧ accepts next)
        start key ∧
      TransGen (fun key next => table.Leads query.direction key next ∧ accepts next) key key := by
  obtain ⟨others, rfl⟩ := List.head?_eq_some_iff.mp lasso.head
  obtain ⟨key, passed, last⟩ := lasso.returns
  have chain := isChain_into lasso.chain accepted
  refine ⟨key, reaches_of_isChain chain key (List.dropLast_subset _ passed), ?_⟩
  obtain ⟨before, between, split⟩ := List.append_of_mem passed
  have whole : start :: others = before ++ key :: (between ++ [key]) := by
    rw [← List.dropLast_append_getLast? key last, split]
    simp
  rw [whole] at chain
  have loop := chain.right_of_append
  cases rest : between ++ [key] with
  | nil => simp at rest
  | cons second later =>
      rw [rest, List.isChain_cons_cons] at loop
      have comesBack : key ∈ second :: later := by simp [← rest]
      exact .head' loop.1 (reaches_of_isChain loop.2 key comesBack)

theorem IsLasso.reachesCycle {table : Table} {query : Query} {start : Key} {keys : List Key}
    (lasso : IsLasso table query start keys) (startPasses : start ∉ query.ignoredKeys table) :
    table.ReachesCycle query start := by
  refine lasso.reaches_cycle fun key member => ?_
  by_cases same : key = start
  · exact same ▸ startPasses
  · exact lasso.passes key (List.mem_of_mem_tail member) same

namespace Search

variable {table : Table} {query : Query} {start key next : Key}
  {stack after below : List Frame} {trail later : Trail} {rest old retired : List Key}

/-! ## The order in which keys are retired -/

/-- Newest first, every key leads only to keys that were retired earlier or are old. -/
def Descends (table : Table) (direction : Direction) (old : List Key) : List Key → Prop
  | [] => True
  | key :: earlier =>
      key ∉ earlier ++ old ∧ (∀ next, table.Leads direction key next → next ∈ earlier ++ old) ∧
        Descends table direction old earlier

namespace Descends

variable {direction : Direction}

theorem follow (descends : Descends table direction old retired) (member : key ∈ retired)
    (leads : table.Leads direction key next) (isNew : next ∉ old) :
    next ∈ retired ∧ retired.idxOf key < retired.idxOf next := by
  induction retired with
  | nil => cases member
  | cons newest earlier induction =>
      obtain ⟨fresh, targets, descends⟩ := descends
      have newestFresh : newest ∉ earlier := fun listed => fresh (List.mem_append_left _ listed)
      have ahead : ∀ other ∈ earlier, newest ≠ other := by
        rintro other listed rfl
        exact newestFresh listed
      by_cases isNewest : key = newest
      · subst isNewest
        have listed : next ∈ earlier :=
          (List.mem_append.mp (targets next leads)).resolve_right isNew
        refine ⟨List.mem_cons_of_mem _ listed, ?_⟩
        rw [List.idxOf_cons_self, List.idxOf_cons_ne _ (ahead next listed)]
        omega
      · have keyListed : key ∈ earlier := (List.mem_cons.mp member).resolve_left isNewest
        obtain ⟨listed, order⟩ := induction descends keyListed
        refine ⟨List.mem_cons_of_mem _ listed, ?_⟩
        rw [List.idxOf_cons_ne _ (ahead key keyListed), List.idxOf_cons_ne _ (ahead next listed)]
        omega

theorem follow_all (descends : Descends table direction old retired) (member : key ∈ retired)
    (way : TransGen (fun key next => table.Leads direction key next ∧ next ∉ old) key next) :
    next ∈ retired ∧ retired.idxOf key < retired.idxOf next := by
  induction way with
  | single link => exact descends.follow member link.1 link.2
  | tail _ link induction =>
      obtain ⟨listed, order⟩ := descends.follow induction.1 link.1 link.2
      exact ⟨listed, Nat.lt_trans induction.2 order⟩

/-- No cycle is reached from a retired key without passing old ones. -/
theorem no_cycle (descends : Descends table direction old retired) (member : start ∈ retired)
    (way : ReflTransGen (fun key next => table.Leads direction key next ∧ next ∉ old) start key) :
    ¬ TransGen (fun key next => table.Leads direction key next ∧ next ∉ old) key key := by
  intro cycle
  have keyMember : key ∈ retired := by
    rcases reflTransGen_iff_eq_or_transGen.mp way with rfl | steps
    · exact member
    · exact (descends.follow_all member steps).1
  exact Nat.lt_irrefl _ (descends.follow_all keyMember cycle).2

/-- Among all retired keys, those that are not ignored still descend. -/
theorem filter_append {ignored : List Key} (descends : Descends table direction old retired)
    (oldDescends : Descends table direction ignored (old.filter (· ∉ ignored))) :
    Descends table direction ignored ((retired ++ old).filter (· ∉ ignored)) := by
  induction retired with
  | nil => exact oldDescends
  | cons newest earlier induction =>
      obtain ⟨fresh, targets, descends⟩ := descends
      rw [List.cons_append, List.filter_cons]
      split
      · next passes =>
          have passes : newest ∉ ignored := by simpa using passes
          refine ⟨fun member => ?_, fun target leads => ?_, induction descends⟩
          · rcases List.mem_append.mp member with kept | isIgnored
            · exact fresh (List.mem_of_mem_filter kept)
            · exact passes isIgnored
          · by_cases isIgnored : target ∈ ignored
            · exact List.mem_append_right _ isIgnored
            · exact List.mem_append_left _
                (List.mem_filter.mpr ⟨targets target leads, by simpa using isIgnored⟩)
      · exact induction descends

end Descends

/-! ## A search from one start -/

/-- The neighbours of the keys of the stack are dead or still to be tried, but for the one that was
entered from each key to get to the next. -/
def Tried (table : Table) (direction : Direction) (dead : List Key) :
    Option Key → List Frame → Prop
  | _, [] => True
  | entered, frame :: below =>
      (∀ next, table.Leads direction frame.key next →
        next ∈ frame.rest ∨ next ∈ dead ∨ entered = some next) ∧
        Tried table direction dead (some frame.key) below

/-- What a cycle search knows while it runs, where `old` are the keys that were dead before and
`retired` those that were retired since. -/
structure Unwinding (table : Table) (query : Query) (start : Key) (old retired : List Key)
    (stack : List Frame) (trail : Trail) : Prop where
  /-- The dead keys are those two. -/
  dead : trail.dead = retired ++ old
  /-- Retired keys lead only to keys that were dead before. -/
  descends : Descends table query.direction old retired
  /-- The neighbours of the path are accounted for. -/
  tried : Tried table query.direction trail.dead none stack
  /-- Retired keys are reached from the start. -/
  reached : ∀ key ∈ retired, ReflTransGen (table.Enters query) start key
  /-- When nothing is left, the start is dead. -/
  searched : stack = [] → start ∈ trail.dead

theorem Tried.grow {direction : Direction} {dead more : List Key} {entered : Option Key}
    (tried : Tried table direction dead entered stack) (grows : dead ⊆ more) :
    Tried table direction more entered stack := by
  induction stack generalizing entered with
  | nil => trivial
  | cons frame below induction =>
      obtain ⟨neighbours, lower⟩ := tried
      refine ⟨fun next leads => ?_, induction lower⟩
      exact (neighbours next leads).imp_right (.imp_left (@grows next))

/-- A key that was entered and is dead by now counts as any other dead key. -/
theorem Tried.leave {direction : Direction} {dead : List Key}
    (tried : Tried table direction dead (some key) stack) (isDead : key ∈ dead) :
    Tried table direction dead none stack := by
  cases stack with
  | nil => trivial
  | cons frame below =>
      refine ⟨fun next leads => ?_, tried.2⟩
      rcases tried.1 next leads with untried | known | entered
      · exact .inl untried
      · exact .inr (.inl known)
      · exact .inr (.inl (Option.some.inj entered ▸ isDead))

/-- Every key of the path is reached from the start. -/
theorem Walking.reaches (walking : Walking table query start stack trail) :
    ∀ key ∈ trail.found, ReflTransGen (table.Enters query) start key := by
  cases path : trail.found with
  | nil => exact nofun
  | cons first others =>
      have isStart : first = start := walking.head first (by simp [path])
      have chain := walking.chain
      have distinct := walking.distinct
      rw [path] at chain distinct
      subst isStart
      refine reaches_of_isChain (isChain_into chain fun key member ignored => ?_)
      rcases walking.blocked key ignored with rfl | dead
      · exact (List.nodup_cons.mp distinct).1 member
      · exact walking.alive key (by simp [path, member]) dead

namespace Unwinding

/-- Trying a neighbour that does not close a cycle. -/
theorem visit
    (unwinding : Unwinding table query start old retired (⟨key, next :: rest⟩ :: below) trail)
    (sought : query.goal = .revisit)
    (visited : Visit table query (⟨key, rest⟩ :: below) trail next (.go after later)) :
    Unwinding table query start old retired after later := by
  obtain ⟨dead, descends, ⟨neighbours, lower⟩, reached, -⟩ := unwinding
  have others : ∀ other, table.Leads query.direction key other →
      other ∈ rest ∨ other ∈ trail.dead ∨ some next = some other := by
    intro other leads
    rcases neighbours other leads with untried | isDead | entered
    · rcases List.mem_cons.mp untried with rfl | later
      · exact .inr (.inr rfl)
      · exact .inl later
    · exact .inr (.inl isDead)
    · cases entered
  cases visited with
  | dead isDead =>
      refine ⟨dead, descends, ⟨fun other leads => ?_, lower⟩, reached, by simp⟩
      rcases others other leads with untried | known | same
      · exact .inl untried
      · exact .inr (.inl known)
      · exact .inr (.inl (Option.some.inj same ▸ isDead))
  | revisited alive onPath goesOn => simp [Query.endsOnRevisit, sought] at goesOn
  | entered keys alive new unmet found =>
      exact ⟨dead, descends,
        ⟨fun _ leads => .inl ((Table.mem_neighbours_iff found).mpr leads), others, lower⟩,
        reached, by simp⟩

/-- A key is retired when all its neighbours are dead. -/
theorem retire (unwinding : Unwinding table query start old retired (⟨key, []⟩ :: below) trail)
    (walking : Walking table query start (⟨key, []⟩ :: below) trail) :
    Unwinding table query start old (key :: retired) below trail.retire := by
  obtain ⟨dead, descends, ⟨neighbours, lower⟩, reached, -⟩ := unwinding
  have found := walking.toStanding.found_cons
  have onPath : key ∈ trail.found := by simp [found]
  have targets : ∀ next, table.Leads query.direction key next → next ∈ trail.dead := by
    intro next leads
    rcases neighbours next leads with untried | isDead | entered
    · cases untried
    · exact isDead
    · cases entered
  rw [walking.toStanding.retire_eq]
  constructor
  case dead => simp [dead]
  case descends => exact ⟨dead ▸ walking.alive key onPath, dead ▸ targets, descends⟩
  case tried =>
    exact (lower.grow (List.subset_cons_self key trail.dead)).leave List.mem_cons_self
  case reached =>
    intro other member
    rcases List.mem_cons.mp member with rfl | earlier
    · exact walking.reaches other onPath
    · exact reached other earlier
  case searched =>
    rintro rfl
    have isStart : key = start := walking.head key (by simp [found])
    exact isStart ▸ List.mem_cons_self

theorem step (unwinding : Unwinding table query start old retired stack trail)
    (walking : Walking table query start stack trail) (sought : query.goal = .revisit)
    (advance : Advance table query stack trail (.go after later)) :
    ∃ retired, Unwinding table query start old retired after later := by
  cases advance with
  | retired key below trail => exact ⟨key :: retired, unwinding.retire walking⟩
  | tried key next rest below trail visited => exact ⟨retired, unwinding.visit sought visited⟩

end Unwinding

/-- Whatever stops a cycle search in a closed table closes a cycle of keys that were not dead. -/
theorem isLasso_of_halt (walking : Walking table query start stack trail)
    (follows : Follows table query start stack next) (sought : query.goal = .revisit)
    (closed : table.ClosedUnder query.direction) (starts : table.HasFunction query.start start)
    {final : Trail} {outcome : Outcome}
    (visited : Visit table query stack trail next (.halt final outcome)) :
    outcome = .success ∧ IsLasso table query start final.found ∧
      ∀ key ∈ final.found, key ∉ trail.dead := by
  cases visited with
  | closed alive onPath ends =>
      have passed : next ∈ trail.found := (walking.onPath next).mp onPath
      have members : ∀ key ∈ trail.found ++ [next], key ∈ trail.found := by
        simpa [or_imp, forall_and] using passed
      obtain ⟨head, chain⟩ := walking.append follows
      refine ⟨rfl, ⟨head, starts, chain, ?_, ⟨next, ?_, ?_⟩, ?_⟩, ?_⟩
      · simpa [Trail.close] using walking.distinct
      · simpa [Trail.close] using passed
      · simp [Trail.close]
      · intro key member different ignored
        rcases walking.blocked key ignored with same | dead
        · exact different same
        · exact walking.alive key (members key member) dead
      · exact fun key member => walking.alive key (members key member)
  | met alive new isMet => simp [Query.isMet, sought] at isMet
  | broken error alive new unmet failed =>
      obtain ⟨keys, neighbours⟩ := follows.exists_neighbours closed starts
      rw [failed] at neighbours
      cases neighbours

/-- How a cycle search from one start ends: with a way into a cycle that passes no old key, or
unwound. -/
def Concludes (table : Table) (query : Query) (start : Key) (old : List Key) (final : Trail)
    (outcome : Outcome) : Prop :=
  outcome = .success ∧ IsLasso table query start final.found ∧ (∀ key ∈ final.found, key ∉ old) ∨
    outcome = .exhausted ∧ ∃ retired, Unwinding table query start old retired [] final

theorem concludes_traverse (walking : Walking table query start [] trail)
    (sought : query.goal = .revisit) (closed : table.ClosedUnder query.direction)
    (starts : table.HasFunction query.start start) :
    Concludes table query start trail.dead (traverse table query start trail).1
      (traverse table query start trail).2 := by
  have follows : Follows table query start [] start := ⟨fun _ => rfl, by simp⟩
  refine traverse_invariant (fun stack later => Walking table query start stack later ∧
    ∃ retired, Unwinding table query start trail.dead retired stack later) ?_ ?_ ?_ ?_
  · intro after later visited
    refine ⟨walking.visit follows visited, [], ?_⟩
    cases visited with
    | dead isDead => exact ⟨rfl, trivial, trivial, by simp, fun _ => isDead⟩
    | revisited alive onPath goesOn => simp [Query.endsOnRevisit, sought] at goesOn
    | entered keys alive new unmet found =>
        exact ⟨rfl, trivial,
          ⟨fun _ leads => .inl ((Table.mem_neighbours_iff found).mpr leads), trivial⟩,
          by simp, by simp⟩
  · intro final outcome visited
    exact .inl (isLasso_of_halt walking follows sought closed starts visited)
  · rintro stack later after next ⟨walking, retired, unwinding⟩ advance
    exact ⟨walking.step advance, unwinding.step walking sought advance⟩
  · rintro stack later final outcome ⟨walking, retired, unwinding⟩ advance
    cases advance with
    | exhausted => exact .inr ⟨rfl, retired, unwinding⟩
    | tried key next rest below _ visited =>
        obtain ⟨success, lasso, alive⟩ :=
          isLasso_of_halt walking.tried walking.follows sought closed starts visited
        refine .inl ⟨success, lasso, fun key member isOld => alive key member ?_⟩
        rw [unwinding.dead]
        exact List.mem_append_right _ isOld

/-- A way into a cycle that an exhausted search has missed passes a key that was dead before. -/
theorem Unwinding.exists_old (unwinding : Unwinding table query start old retired [] trail)
    {keys : List Key} (lasso : IsLasso table query start keys) : ∃ key ∈ keys, key ∈ old := by
  by_contra none
  push Not at none
  have isDead := unwinding.searched rfl
  rw [unwinding.dead] at isDead
  have isRetired : start ∈ retired :=
    (List.mem_append.mp isDead).resolve_right (none start (List.mem_of_head? lasso.head))
  obtain ⟨key, way, cycle⟩ := lasso.reaches_cycle fun key member =>
    none key (List.mem_of_mem_tail member)
  exact unwinding.descends.no_cycle isRetired way cycle

/-! ## From start to start -/

/-- What is known of the dead keys when the starts in `before` were searched from in vain. -/
structure Cleared (table : Table) (query : Query) (before dead : List Key) : Prop where
  /-- Ignored keys are dead. -/
  ignored : ∀ key ∈ query.ignoredKeys table, key ∈ dead
  /-- The other dead keys lead only to ignored keys and to keys that were dead before them. -/
  descends : Descends table query.direction (query.ignoredKeys table)
    (dead.filter (· ∉ query.ignoredKeys table))
  /-- The starts are dead, and so are their neighbours. -/
  searched : ∀ start ∈ before,
    start ∈ dead ∧ ∀ next, table.Leads query.direction start next → next ∈ dead
  /-- Keys that are dead without being ignored are reached from one of the starts. -/
  reached : ∀ key ∈ dead, key ∉ query.ignoredKeys table →
    ∃ start ∈ before, ReflTransGen (table.Enters query) start key

/-- A way from a start passes another key, which is reached from an earlier start. -/
def Crosses (table : Table) (query : Query) (before : List Key) (start : Key)
    (keys : List Key) : Prop :=
  ∃ key ∈ keys, key ≠ start ∧ ∃ earlier ∈ before, ReflTransGen (table.Enters query) earlier key

theorem cleared_ignoredKeys : Cleared table query [] (query.ignoredKeys table) where
  ignored _ member := member
  descends := by
    have empty : (query.ignoredKeys table).filter (· ∉ query.ignoredKeys table) = [] := by
      simp [List.filter_eq_nil_iff]
    rw [empty]
    trivial
  searched := nofun
  reached _ member passes := absurd member passes

theorem filter_dead_opened :
    (opened table query start trail).dead.filter (· ∉ query.ignoredKeys table) =
      trail.dead.filter (· ∉ query.ignoredKeys table) := by
  unfold opened
  split
  · next ignored =>
      rw [List.contains_iff_mem] at ignored
      simp only [Trail.readmit, List.filter_filter]
      apply List.filter_congr
      intro key _
      by_cases same : key = start
      · simp [same, ignored]
      · simp [same]
  · rfl

namespace Cleared

variable {before : List Key} {final : Trail}

theorem closed (cleared : Cleared table query before trail.dead) (isDead : key ∈ trail.dead)
    (passes : key ∉ query.ignoredKeys table) (leads : table.Leads query.direction key next) :
    next ∈ trail.dead := by
  by_cases ignored : next ∈ query.ignoredKeys table
  · exact cleared.ignored next ignored
  · have member : key ∈ trail.dead.filter (· ∉ query.ignoredKeys table) := by
      simp [isDead, passes]
    exact List.mem_of_mem_filter (cleared.descends.follow member leads ignored).1

/-- Whatever is reached from a start that was searched from is dead. -/
theorem mem_dead (cleared : Cleared table query before trail.dead) {earlier : Key}
    (searched : earlier ∈ before) (way : ReflTransGen (table.Enters query) earlier key) :
    key ∈ trail.dead := by
  -- an ignored key occurs at the beginning of the way at most
  suffices known : key ∈ trail.dead ∧ (key = earlier ∨ key ∉ query.ignoredKeys table) from known.1
  induction way with
  | refl => exact ⟨(cleared.searched earlier searched).1, .inl rfl⟩
  | tail _ enters induction =>
      obtain ⟨isDead, isStart | passes⟩ := induction
      · rw [isStart] at enters
        exact ⟨(cleared.searched earlier searched).2 _ enters.1, .inr enters.2⟩
      · exact ⟨cleared.closed isDead passes enters.1, .inr enters.2⟩

theorem no_cycle (cleared : Cleared table query before trail.dead) (isDead : key ∈ trail.dead)
    (passes : key ∉ query.ignoredKeys table) : ¬ table.ReachesCycle query key := by
  rintro ⟨other, way, cycle⟩
  have member : key ∈ trail.dead.filter (· ∉ query.ignoredKeys table) := by
    simp [isDead, passes]
  exact cleared.descends.no_cycle member way cycle

/-- An exhausted search clears its start. -/
theorem extend (cleared : Cleared table query before trail.dead)
    (unwinding : Unwinding table query start (opened table query start trail).dead retired []
      final) : Cleared table query (before ++ [start]) final.dead := by
  have startDead : start ∈ final.dead := unwinding.searched rfl
  have kept : ∀ key ∈ trail.dead, key ∈ final.dead := by
    intro key isDead
    by_cases same : key = start
    · exact same ▸ startDead
    · rw [unwinding.dead]
      exact List.mem_append_right _ (mem_dead_opened_iff.mpr ⟨isDead, fun _ => same⟩)
  constructor
  case ignored => exact fun key ignored => kept key (cleared.ignored key ignored)
  case descends =>
    rw [unwinding.dead]
    refine unwinding.descends.filter_append ?_
    rw [filter_dead_opened]
    exact cleared.descends
  case searched =>
    intro other member
    rcases List.mem_append.mp member with earlier | isStart
    · obtain ⟨isDead, neighbours⟩ := cleared.searched other earlier
      exact ⟨kept other isDead, fun target leads => kept target (neighbours target leads)⟩
    · rw [List.mem_singleton.mp isStart]
      refine ⟨startDead, fun target leads => ?_⟩
      rw [unwinding.dead] at startDead
      rcases List.mem_append.mp startDead with isRetired | isOld
      · rw [unwinding.dead, List.mem_append]
        by_cases old : target ∈ (opened table query start trail).dead
        · exact .inr old
        · exact .inl (unwinding.descends.follow isRetired leads old).1
      · obtain ⟨wasDead, isOther⟩ := mem_dead_opened_iff.mp isOld
        exact kept target (cleared.closed wasDead (fun ignored => isOther ignored rfl) leads)
  case reached =>
    intro key isDead passes
    rw [unwinding.dead] at isDead
    rcases List.mem_append.mp isDead with isRetired | isOld
    · exact ⟨start, by simp, unwinding.reached key isRetired⟩
    · obtain ⟨earlier, member, way⟩ :=
        cleared.reached key (mem_dead_opened_iff.mp isOld).1 passes
      exact ⟨earlier, List.mem_append_left _ member, way⟩

/-- A way into a cycle that an exhausted search has missed crosses an earlier start's ways. -/
theorem crosses (cleared : Cleared table query before trail.dead)
    (unwinding : Unwinding table query start (opened table query start trail).dead retired []
      final) {keys : List Key} (lasso : IsLasso table query start keys) :
    Crosses table query before start keys := by
  by_cases startOld : start ∈ (opened table query start trail).dead
  · obtain ⟨isDead, isOther⟩ := mem_dead_opened_iff.mp startOld
    have startPasses : start ∉ query.ignoredKeys table := fun ignored => isOther ignored rfl
    exact absurd (lasso.reachesCycle startPasses) (cleared.no_cycle isDead startPasses)
  · obtain ⟨key, member, isOld⟩ := unwinding.exists_old lasso
    have different : key ≠ start := fun same => startOld (same ▸ isOld)
    exact ⟨key, member, different, cleared.reached key (mem_dead_opened_iff.mp isOld).1
      (lasso.passes key member different)⟩

/-- A way that passes no dead key crosses none of the ways of earlier starts. -/
theorem not_crosses (cleared : Cleared table query before trail.dead) {keys : List Key}
    (alive : ∀ key ∈ keys, key ∉ (opened table query start trail).dead) :
    ¬ Crosses table query before start keys := by
  rintro ⟨key, member, different, earlier, searched, way⟩
  exact alive key member
    (mem_dead_opened_iff.mpr ⟨cleared.mem_dead searched way, fun _ => different⟩)

end Cleared

/-- How a cycle search from several starts ends: with a way into a cycle that crosses no way of an
earlier start, or without one, when every way into a cycle crosses such a way. -/
theorem concludes_fromCandidates {before starts : List Key}
    (cleared : Cleared table query before trail.dead) (found : trail.found = [])
    (onPath : trail.onPath = []) (sought : query.goal = .revisit)
    (closed : table.ClosedUnder query.direction)
    (functions : ∀ start ∈ starts, table.HasFunction query.start start) :
    (∃ between first after, starts = between ++ first :: after ∧
        (fromCandidates table query starts trail).2 = .success ∧
        IsLasso table query first (fromCandidates table query starts trail).1.found ∧
        ¬ Crosses table query (before ++ between) first
          (fromCandidates table query starts trail).1.found) ∨
      (fromCandidates table query starts trail).2 = .exhausted ∧
        Cleared table query (before ++ starts) (fromCandidates table query starts trail).1.dead ∧
        ∀ between first after, starts = between ++ first :: after →
          ∀ keys, IsLasso table query first keys →
            Crosses table query (before ++ between) first keys := by
  induction starts generalizing trail before with
  | nil =>
      refine .inr ⟨rfl, by simpa [fromCandidates] using cleared, ?_⟩
      intro between first after split
      simp at split
  | cons start starts induction =>
      have concludes := concludes_traverse (walking_opened cleared.ignored found onPath) sought
        closed (functions start List.mem_cons_self)
      cases result : traverse table query start (opened table query start trail) with
      | mk final outcome =>
          rw [result] at concludes
          rcases concludes with ⟨rfl, lasso, alive⟩ | ⟨rfl, retired, unwinding⟩
          · rw [fromCandidates_of_success result]
            refine .inl ⟨[], start, starts, rfl, rfl, lasso, ?_⟩
            rw [List.append_nil]
            exact cleared.not_crosses alive
          · rw [fromCandidates_of_exhausted result]
            have extended := cleared.extend unwinding
            rcases @induction final.restart (before ++ [start]) extended rfl rfl
              fun later member => functions later (List.mem_cons_of_mem _ member) with
              ⟨between, first, after, split, success, lasso, apart⟩ | ⟨exhausted, clear, crossed⟩
            · refine .inl ⟨start :: between, first, after, by rw [split]; rfl, success, lasso, ?_⟩
              simpa using apart
            · refine .inr ⟨exhausted, by simpa using clear, ?_⟩
              intro between first after split keys lasso
              cases between with
              | nil =>
                  cases split
                  rw [List.append_nil]
                  exact cleared.crosses unwinding lasso
              | cons head between =>
                  cases split
                  simpa using crossed between first after rfl keys lasso

/-- A search from one start alone, with the ignored keys but not the start dead, finds a cycle. -/
def FindsAlone (table : Table) (query : Query) (start : Key) : Prop :=
  (traverse table query start
    (opened table query start { dead := query.ignoredKeys table })).2 = .success

theorem findsAlone_iff (sought : query.goal = .revisit) (closed : table.ClosedUnder query.direction)
    (starts : table.HasFunction query.start start) :
    FindsAlone table query start ↔ ∃ keys, IsLasso table query start keys := by
  have concludes := concludes_traverse (@walking_opened table query start
    { dead := query.ignoredKeys table } (fun _ member => member) rfl rfl) sought closed starts
  unfold FindsAlone
  rcases concludes with ⟨success, lasso, -⟩ | ⟨exhausted, retired, unwinding⟩
  · exact ⟨fun _ => ⟨_, lasso⟩, fun _ => success⟩
  · rw [exhausted]
    refine ⟨nofun, ?_⟩
    rintro ⟨keys, lasso⟩
    obtain ⟨key, member, isOld⟩ := unwinding.exists_old lasso
    obtain ⟨ignored, isOther⟩ := mem_dead_opened_iff.mp isOld
    by_cases same : key = start
    · subst same
      exact absurd rfl (isOther ignored)
    · exact absurd ignored (lasso.passes key member same)

end Search

namespace Table

variable {table : Table} {query : Query}

theorem search_cycle_cases (sought : query.goal = .revisit)
    (closed : table.ClosedUnder query.direction) :
    (∃ before first after keys, query.candidates table = before ++ first :: after ∧
        (table.search query).keys = .ok keys ∧ IsLasso table query first keys ∧
        ¬ Search.Crosses table query before first keys) ∨
      (table.search query).keys = .ok [] ∧
        (∃ final : Trail, Search.Cleared table query (query.candidates table) final.dead) ∧
        ∀ before first after, query.candidates table = before ++ first :: after →
          ∀ keys, IsLasso table query first keys →
            Search.Crosses table query before first keys := by
  have concludes := @Search.concludes_fromCandidates table query
    { dead := query.ignoredKeys table } [] (query.candidates table) Search.cleared_ignoredKeys rfl
    rfl sought closed fun start member => Query.mem_candidates_iff.mp member
  cases result : Search.fromCandidates table query (query.candidates table)
      { dead := query.ignoredKeys table } with
  | mk final outcome =>
      rw [result] at concludes
      rcases concludes with ⟨before, first, after, split, rfl, lasso, apart⟩ |
        ⟨rfl, cleared, crossed⟩
      · have answer : (table.search query).keys = .ok final.found := by simp only [search, result]
        exact .inl ⟨before, first, after, final.found, split, answer, lasso, apart⟩
      · have answer : (table.search query).keys = .ok [] := by simp only [search, result]
        exact .inr ⟨answer, ⟨final, cleared⟩, crossed⟩

/-- A cycle search in a table whose edges all lead to records returns.  What it returns leads from
a start into a cycle.  If no start is ignored, it returns nothing only if no start reaches a cycle
of keys that are not ignored. -/
theorem search_cycle (sought : query.goal = .revisit)
    (closed : table.ClosedUnder query.direction) :
    ∃ keys, (table.search query).keys = .ok keys ∧
      (keys ≠ [] → ∃ start ∈ query.candidates table, IsLasso table query start keys) ∧
      ((∀ start ∈ query.candidates table, start ∉ query.ignoredKeys table) →
        (keys = [] ↔ ∀ start ∈ query.candidates table, ¬ table.ReachesCycle query start)) := by
  rcases search_cycle_cases sought closed with
    ⟨before, first, after, keys, split, answer, lasso, -⟩ | ⟨answer, ⟨final, cleared⟩, -⟩
  · have candidate : first ∈ query.candidates table := by simp [split]
    refine ⟨keys, answer, fun _ => ⟨first, candidate, lasso⟩, fun passes => ⟨?_, ?_⟩⟩
    · rintro rfl
      simpa using lasso.head
    · intro none
      exact absurd (lasso.reachesCycle (passes first candidate)) (none first candidate)
  · refine ⟨[], answer, fun some => absurd rfl some, fun passes => ⟨fun _ => ?_, fun _ => rfl⟩⟩
    intro start candidate
    exact cleared.no_cycle (cleared.searched start candidate).1 (passes start candidate)

/-- A cycle search returns nothing exactly if every way from a start into a cycle passes a key that
an earlier start reaches.  A search from one start alone finds every cycle of that start, so a start
that is ignored may lose its cycles to the starts before it; without such starts none is lost. -/
theorem search_cycle_lost_iff (sought : query.goal = .revisit)
    (closed : table.ClosedUnder query.direction) :
    ∃ keys, (table.search query).keys = .ok keys ∧
      (keys = [] ↔ ∀ before start after, query.candidates table = before ++ start :: after →
        ∀ way, IsLasso table query start way → Search.Crosses table query before start way) ∧
      (∀ start ∈ query.candidates table,
        Search.FindsAlone table query start ↔ ∃ way, IsLasso table query start way) ∧
      ((∀ start ∈ query.candidates table, start ∉ query.ignoredKeys table) →
        (∃ start ∈ query.candidates table, Search.FindsAlone table query start) → keys ≠ []) := by
  have alone : ∀ start ∈ query.candidates table,
      Search.FindsAlone table query start ↔ ∃ way, IsLasso table query start way := by
    intro start candidate
    exact Search.findsAlone_iff sought closed (Query.mem_candidates_iff.mp candidate)
  rcases search_cycle_cases sought closed with
    ⟨before, first, after, keys, split, answer, lasso, apart⟩ | ⟨answer, ⟨final, cleared⟩, crossed⟩
  · have nonempty : keys ≠ [] := by
      rintro rfl
      simpa using lasso.head
    refine ⟨keys, answer, ⟨fun empty => absurd empty nonempty, fun crossed => ?_⟩, alone,
      fun _ _ => nonempty⟩
    exact absurd (crossed before first after split keys lasso) apart
  · refine ⟨[], answer, ⟨fun _ => crossed, fun _ => rfl⟩, alone, ?_⟩
    rintro passes ⟨start, candidate, finds⟩
    obtain ⟨way, lasso⟩ := (alone start candidate).mp finds
    have startPasses := passes start candidate
    exact absurd (lasso.reachesCycle startPasses)
      (cleared.no_cycle (cleared.searched start candidate).1 startPasses)

end Table

/-- A function that calls two others, which call each other and a fourth. -/
def calledRing : Table :=
  .ofRecords
    [("f", { name := "f", kind := some .function, calls := ["g"] }),
      ("g", { name := "g", kind := some .function, calls := ["i", "h"] }),
      ("h", { name := "h", kind := some .function, calls := ["g"] }),
      ("i", { name := "i", kind := some .function, calls := ["f"] })]

/-- Ask for a cycle from `f` that does not pass `i`. -/
def cycleFromF : Query := { start := (· == "f"), goal := .revisit, ignore := ["i"] }

theorem search_cycle_calledRing :
    ∃ keys, (calledRing.search cycleFromF).keys = .ok keys ∧
      IsLasso calledRing cycleFromF "f" keys := by
  have closed : calledRing.ClosedUnder cycleFromF.direction := by decide +kernel
  have candidates : cycleFromF.candidates calledRing = ["f"] := by decide +kernel
  have passes : ∀ start ∈ cycleFromF.candidates calledRing,
      start ∉ cycleFromF.ignoredKeys calledRing := by decide +kernel
  have cycle : calledRing.ReachesCycle cycleFromF "f" := by
    have toG : calledRing.Enters cycleFromF "f" "g" := ⟨by decide +kernel, by decide +kernel⟩
    have toH : calledRing.Enters cycleFromF "g" "h" := ⟨by decide +kernel, by decide +kernel⟩
    have back : calledRing.Enters cycleFromF "h" "g" := ⟨by decide +kernel, by decide +kernel⟩
    exact ⟨"g", .single toG, .tail (.single toH) back⟩
  obtain ⟨keys, answer, found, none⟩ := Table.search_cycle rfl closed
  have nonempty : keys ≠ [] := fun empty =>
    (none passes).mp empty "f" (by simp [candidates]) cycle
  obtain ⟨start, candidate, lasso⟩ := found nonempty
  have isF : start = "f" := by simpa [candidates] using candidate
  exact ⟨keys, answer, isF ▸ lasso⟩

/-- Two functions that call each other. -/
def mutualPair : Table :=
  .ofRecords
    [("f", { name := "f", kind := some .function, calls := ["g"] }),
      ("g", { name := "g", kind := some .function, calls := ["f"] })]

/-- Ask for a cycle from any function, where `g` is ignored. -/
def cycleBesidesG : Query := { start := fun _ => true, goal := .revisit, ignore := ["g"] }

/-- The cycle of an ignored function is lost to a function that comes before it, and found when that
function comes after it. -/
theorem search_cycle_lost_mutualPair :
    (mutualPair.search cycleBesidesG).keys = .ok [] ∧
      Search.FindsAlone mutualPair cycleBesidesG "g" ∧
      (∃ way, IsLasso mutualPair cycleBesidesG "g" way ∧
        Search.Crosses mutualPair cycleBesidesG ["f"] "g" way) ∧
      (Table.search (.ofRecords mutualPair.entries.reverse) cycleBesidesG).keys =
        .ok ["g", "f", "g"] := by
  have closed : mutualPair.ClosedUnder cycleBesidesG.direction := by decide +kernel
  have candidates : cycleBesidesG.candidates mutualPair = ["f"] ++ "g" :: [] := by decide +kernel
  have nothing : (mutualPair.search cycleBesidesG).keys = .ok [] := by cbv
  have findsAlone : Search.FindsAlone mutualPair cycleBesidesG "g" := by
    unfold Search.FindsAlone
    cbv
  have reversed : (Table.search (.ofRecords mutualPair.entries.reverse) cycleBesidesG).keys =
      .ok ["g", "f", "g"] := by cbv
  obtain ⟨keys, answer, lost, alone, -⟩ := Table.search_cycle_lost_iff rfl closed
  have empty : keys = [] := Except.ok.inj (answer.symm.trans nothing)
  obtain ⟨way, lasso⟩ := (alone "g" (by simp [candidates])).mp findsAlone
  have crossed := lost.mp empty ["f"] "g" [] candidates way lasso
  exact ⟨nothing, findsAlone, ⟨way, lasso, crossed⟩, reversed⟩

end CallGraph
