import CallGraph.Proofs.Resolution.Reciprocity
import Mathlib.Data.List.Infix

/-!
# Resolving twice

Resolving a resolved table changes nothing, not even the order of a list.  A second run takes the
resolved keys for tokens, and the private symbols that the sweep removed no longer stand before the
public ones of the same name.  Still every token of a resolved list stands for keys of that list,
and these come up in the order in which they stand there.
-/

namespace CallGraph

/-! ## Unions of lists -/

section Union

variable {members items left right : List String} {item : String}

theorem prefix_union (members items : List String) : members <+: union members items := by
  induction items generalizing members with
  | nil => exact List.prefix_rfl
  | cons head items induction =>
      rw [union]
      split
      · exact induction members
      · exact (List.prefix_append members [head]).trans (induction _)

theorem union_eq_self (known : ∀ item ∈ items, item ∈ members) : union members items = members := by
  induction items with
  | nil => rfl
  | cons head items induction =>
      rw [union, if_pos (known head List.mem_cons_self)]
      exact induction fun item member => known item (List.mem_cons_of_mem _ member)

theorem filter_union (keep : String → Bool) (members items : List String) :
    (union members items).filter keep = union (members.filter keep) (items.filter keep) := by
  induction items generalizing members with
  | nil => rfl
  | cons head items induction =>
      rw [union]
      cases kept : keep head with
      | true =>
          rw [List.filter_cons_of_pos kept, union]
          by_cases present : head ∈ members
          · rw [if_pos present, induction, if_pos (List.mem_filter.mpr ⟨present, kept⟩)]
          · have absent : head ∉ members.filter keep := fun listed =>
              present (List.mem_filter.mp listed).1
            rw [if_neg present, induction, if_neg absent, List.filter_append,
              List.filter_cons_of_pos kept]
            rfl
      | false =>
          have dropped : ¬ keep head = true := by simp [kept]
          rw [List.filter_cons_of_neg dropped]
          split
          · exact induction members
          · rw [induction, List.filter_append, List.filter_cons_of_neg dropped]
            simp

/-- A member that is there already may come up anywhere. -/
theorem union_filter_ne (present : item ∈ members) (items : List String) :
    union members (items.filter (· ≠ item)) = union members items := by
  induction items generalizing members with
  | nil => rfl
  | cons head items induction =>
      by_cases same : head = item
      · subst same
        rw [List.filter_cons_of_neg (by simp), induction present, union, if_pos present]
      · rw [List.filter_cons_of_pos (by simpa using same), union, union]
        split
        · exact induction present
        · exact induction (List.mem_append_left _ present)

/-- Only members that are there already, and the item itself, come up before the item. -/
theorem union_append_cons (early : ∀ other ∈ left, other ∈ members ∨ other = item)
    (absent : item ∉ members) :
    union members (left ++ item :: right) = union (members ++ [item]) right := by
  induction left with
  | nil => rw [List.nil_append, union, if_neg absent]
  | cons head left induction =>
      have later := induction fun other member => early other (List.mem_cons_of_mem _ member)
      rw [List.cons_append, union]
      split
      · exact later
      · next fresh =>
          obtain rfl := (early head List.mem_cons_self).resolve_left fresh
          have known : head ∈ members ++ [head] := List.mem_append_right _ List.mem_cons_self
          have settled : ∀ other ∈ left, other ∈ members ++ [head] := by
            intro other member
            rcases early other (List.mem_cons_of_mem _ member) with old | rfl
            · exact List.mem_append_left _ old
            · exact known
          rw [union_append, union_eq_self settled, union, if_pos known]

theorem union_of_forall_eq (alone : ∀ other ∈ items, other = item) (member : item ∈ items)
    (absent : item ∉ members) : union members items = members ++ [item] := by
  obtain ⟨left, right, rfl⟩ := List.append_of_mem member
  rw [union_append_cons (fun other before => .inr (alone other (by simp [before]))) absent]
  apply union_eq_self
  intro other after
  exact List.mem_append_right _ (by simp [alone other (by simp [after])])

/-- What comes up for the second time goes on from the item, if before it only known members come
up, and after it the members that are kept. -/
theorem filter_union_split {keep : String → Bool} {early late early' late' rest : List String}
    (absent : item ∉ members) (first : item ∉ early) (kept : keep item = true)
    (known : ∀ other ∈ early', other ∈ early.filter keep ∨ other = item)
    (alike : late'.filter (· ≠ item) = (late.filter keep).filter (· ≠ item)) :
    ∃ front back, (union members (early ++ item :: (late ++ rest))).filter keep =
        front ++ item :: back ∧
      union front (early' ++ item :: late') <+: front ++ item :: back := by
  let front := (union members early).filter keep
  have missing : item ∉ union members early := by
    rw [mem_union]
    exact not_or.mpr ⟨absent, first⟩
  have present : item ∈ front ++ [item] := List.mem_append_right _ List.mem_cons_self
  have whole : (union members (early ++ item :: (late ++ rest))).filter keep =
      union (union (front ++ [item]) (late.filter keep)) (rest.filter keep) := by
    rw [union_append, union, if_neg missing, union_append, filter_union, filter_union,
      List.filter_append, List.filter_cons_of_pos kept, List.filter_nil]
  have goesOn : union front (early' ++ item :: late') =
      union (front ++ [item]) (late.filter keep) := by
    have settled : ∀ other ∈ early', other ∈ front ∨ other = item := by
      intro other member
      refine (known other member).imp_left fun stays => ?_
      rw [List.mem_filter] at stays ⊢
      exact ⟨mem_union.mpr (.inr stays.1), stays.2⟩
    rw [union_append_cons settled fun member => missing (List.mem_filter.mp member).1,
      ← union_filter_ne present, alike, union_filter_ne present]
  obtain ⟨back, shape⟩ := (prefix_union (front ++ [item]) (late.filter keep)).trans
    (prefix_union _ (rest.filter keep))
  rw [List.append_assoc, List.singleton_append] at shape
  refine ⟨front, back, whole.trans shape.symm, ?_⟩
  rw [goesOn, shape]
  exact prefix_union _ _

theorem not_mem_of_nodup_split {front back : List String}
    (distinct : (front ++ item :: back).Nodup) : item ∉ front ∧ item ∉ back := by
  rw [List.nodup_append, List.nodup_cons] at distinct
  exact ⟨fun member => distinct.2.2 item member item List.mem_cons_self rfl, distinct.2.1.1⟩

theorem eq_of_prefix_of_subset (distinct : right.Nodup) (starts : left <+: right)
    (covers : ∀ item ∈ right, item ∈ left) : left = right := by
  obtain ⟨rest, rfl⟩ := starts
  cases rest with
  | nil => rw [List.append_nil]
  | cons item rest =>
      have listed := covers item (List.mem_append_right _ List.mem_cons_self)
      exact absurd rfl ((List.nodup_append.mp distinct).2.2 item listed item List.mem_cons_self)

/-- An initial part that covers a front, but not the member after it, is the front. -/
theorem eq_of_prefix_of_not_mem {front back reached keys : List String} {key : String}
    (split : keys = front ++ key :: back) (distinct : keys.Nodup) (starts : reached <+: keys)
    (covers : ∀ other ∈ front, other ∈ reached) (absent : key ∉ reached) : reached = front := by
  subst split
  apply eq_of_prefix_of_subset (List.nodup_append.mp distinct).1 _ covers
  rcases List.prefix_or_prefix_of_prefix starts (List.prefix_append front _) with
    shorter | ⟨rest, rfl⟩
  · exact shorter
  · cases rest with
    | nil => rw [List.append_nil]
    | cons next rest =>
        rw [List.prefix_append_right_inj, List.cons_prefix_cons] at starts
        exact absurd (by simp [starts.1]) absent

/-- A list is the list of what its members stand for, in order of appearance, if each member brings
up a part of the list that goes on from where it stands. -/
theorem distinctMembers_flatMap_eq_self {stands : String → List String} {keys : List String}
    (distinct : keys.Nodup)
    (goesOn : ∀ key ∈ keys, key ∈ stands key ∧
      ∃ front back, keys = front ++ key :: back ∧ union front (stands key) <+: keys)
    (own : ∀ key ∈ keys, (∀ other ∈ stands key, other = key) ∨
      ∀ other ∈ keys, key ∈ stands other → other = key) :
    distinctMembers (keys.flatMap stands) = keys := by
  -- what the members of a front bring up is an initial part of the list that covers the front
  have reached : ∀ front back, keys = front ++ back →
      distinctMembers (front.flatMap stands) <+: keys ∧
        ∀ key ∈ front, key ∈ distinctMembers (front.flatMap stands) := by
    intro front
    induction front using List.reverseRecOn with
    | nil => exact fun _ _ => ⟨List.nil_prefix, by simp⟩
    | append_singleton front key induction =>
        intro back shape
        have split : keys = front ++ key :: back := by simpa using shape
        obtain ⟨starts, covers⟩ := induction _ split
        have grown : distinctMembers ((front ++ [key]).flatMap stands) =
            union (distinctMembers (front.flatMap stands)) (stands key) := by
          simp [distinctMembers, union_append]
        obtain ⟨brings, before, _, again, continues⟩ := goesOn key (split ▸ by simp)
        obtain ⟨inFront, later⟩ := not_mem_of_nodup_split (split ▸ distinct)
        obtain ⟨rfl, -⟩ :=
          (List.append_cons_inj_of_notMem inFront later).mp (split.symm.trans again)
        rw [grown]
        constructor
        · by_cases known : key ∈ distinctMembers (front.flatMap stands)
          · rcases own key (split ▸ by simp) with alone | unique
            · rwa [union_eq_self fun other member => alone other member ▸ known]
            · rw [mem_distinctMembers, List.mem_flatMap] at known
              obtain ⟨other, member, brought⟩ := known
              have same := unique other (split ▸ List.mem_append_left _ member) brought
              exact absurd (same ▸ member) inFront
          · rwa [eq_of_prefix_of_not_mem split distinct starts covers known]
        · intro other member
          rw [mem_union]
          rcases List.mem_append.mp member with before | last
          · exact .inl (covers other before)
          · exact .inr (List.mem_singleton.mp last ▸ brings)
  obtain ⟨starts, covers⟩ := reached keys [] (by simp)
  exact eq_of_prefix_of_subset distinct starts covers

end Union

/-! ## Tables that are told by look-up -/

theorem KeyMap.entries_eq_filterMap {α : Type} (map : KeyMap α) :
    map.entries = map.keys.filterMap fun key => (map.get? key).map fun value => (key, value) := by
  have each : ∀ entry ∈ map.entries,
      (map.get? entry.1).map (fun value => (entry.1, value)) = some entry := by
    intro entry member
    rw [(map.get?_eq_some_iff entry.1 entry.2).mpr member, Option.map_some]
  rw [keys, List.filterMap_map]
  exact (List.filterMap_some.symm.trans (List.filterMap_congr each).symm)

theorem KeyMap.eq_of_get? {α : Type} {left right : KeyMap α} (keys : left.keys = right.keys)
    (values : ∀ key, left.get? key = right.get? key) : left = right := by
  apply ext_entries
  rw [left.entries_eq_filterMap, right.entries_eq_filterMap, keys]
  simp only [values]

namespace Table

/-- Two tables have the same keys in the same order, and keep the same origins for the return of
dropped symbols. -/
structure SameFrame (left right : Table) : Prop where
  keys : left.keys = right.keys
  detached : left.detached = right.detached

theorem SameFrame.trans {left middle right : Table} (first : SameFrame left middle)
    (second : SameFrame middle right) : SameFrame left right :=
  ⟨first.keys.trans second.keys, first.detached.trans second.detached⟩

theorem sameFrame_modify (table : Table) (key : Key) (change : Record → Record) :
    SameFrame (table.modify key change) table :=
  ⟨table.records.keys_modify key change, rfl⟩

theorem sameFrame_foldl {α : Type} {change : Table → α → Table}
    (kept : ∀ table item, SameFrame (change table item) table) (items : List α) (table : Table) :
    SameFrame (items.foldl change table) table := by
  induction items generalizing table with
  | nil => exact ⟨rfl, rfl⟩
  | cons item items induction => exact (induction (change table item)).trans (kept table item)

theorem sameFrame_resolveToken (key : Key) (field : EdgeField) (severalOrigins : Bool)
    (state : Table × List Key) (token : String) (origin : Origin) :
    SameFrame (resolveToken key field severalOrigins state token origin).1 state.1 := by
  rw [resolveToken_eq]
  split
  · exact ⟨rfl, rfl⟩
  · dsimp only
    split
    · exact sameFrame_modify state.1 _ _
    · exact ⟨rfl, rfl⟩

theorem sameFrame_readings (key : Key) (field : EdgeField) (severalOrigins : Bool)
    (readings : List (String × Origin)) (state : Table × List Key) :
    SameFrame
      (readings.foldl
        (fun state reading => resolveToken key field severalOrigins state reading.1 reading.2)
        state).1 state.1 := by
  induction readings generalizing state with
  | nil => exact ⟨rfl, rfl⟩
  | cons reading readings induction =>
      exact (induction _).trans
        (sameFrame_resolveToken key field severalOrigins state reading.1 reading.2)

theorem sameFrame_resolveForward (table : Table) (key : Key) (field : EdgeField) :
    SameFrame (table.resolveForward key field) table := by
  unfold resolveForward
  split
  · exact ⟨rfl, rfl⟩
  · next record _ =>
      dsimp only
      split
      · exact ⟨rfl, rfl⟩
      · refine (sameFrame_modify _ key _).trans ?_
        rw [foldl_readings record field fun state token origin =>
          resolveToken key field (record.origins.length > 1) state token origin]
        exact sameFrame_readings key field _ _ (table, [])

theorem sameFrame_pruneBackward (table : Table) (key : Key) (field : EdgeField) :
    SameFrame (table.pruneBackward key field) table := by
  unfold pruneBackward
  split
  · exact ⟨rfl, rfl⟩
  · exact sameFrame_modify table key _

/-- Both passes keep every key in its place. -/
theorem sameFrame_linkFields (table : Table) :
    SameFrame table.linkFields { table with detached := ∅ } := by
  have restored : SameFrame table.restoreOrigins { table with detached := ∅ } :=
    ⟨(sameFrame_foldl (fun table (entry : Key × List Origin) =>
      table.sameFrame_modify entry.1 (·.addOrigins entry.2)) _ table).keys, rfl⟩
  have resolved : SameFrame table.restoreOrigins.resolveForwardFields table.restoreOrigins :=
    sameFrame_foldl (fun table (entry : Key × EdgeField) =>
      table.sameFrame_resolveForward entry.1 entry.2) _ _
  have pruned : SameFrame table.linkFields table.restoreOrigins.resolveForwardFields :=
    sameFrame_foldl (fun table (entry : Key × EdgeField) =>
      table.sameFrame_pruneBackward entry.1 entry.2) _ _
  exact (pruned.trans resolved).trans restored

theorem detached_sweep (table : Table) : table.sweep.1.detached = table.detached := by
  refine sweep_induction (motive := fun table final => final.detached = table.detached) ?_ ?_ table
  · exact fun _ _ => rfl
  · exact fun _ _ _ later => later

/-! ## Resolved tables -/

/-- A table that has nothing left to resolve. -/
structure Resolved (table : Table) : Prop where
  /-- No origins wait for the return of a symbol. -/
  restored : table.detached = ∅
  /-- Every forward field is the list of its targets. -/
  forward : ∀ key field, field.isForward = true → table.targets key field = table.edgesOf key field
  /-- The targets of a private key name it back. -/
  noted : ∀ key field target, field.isForward = true → Key.isPrivate key = true →
    target ∈ table.edgesOf key field → key ∈ table.edgesOf target field.inverse
  /-- A public entry of a backward field is answered. -/
  answered : ∀ key field token, field.isForward = true →
    token ∈ table.edgesOf key field.inverse →
      Key.isPrivate token = true ∨ key ∈ table.edgesOf token field
  /-- No list of edges repeats a member. -/
  distinct : table.EdgesDistinct
  /-- Every record has an edge. -/
  connected : ∀ key record, table.get? key = some record → record.hasEdges = true

theorem restoreOrigins_eq_self {table : Table} (restored : table.detached = ∅) :
    table.restoreOrigins = table := by
  obtain ⟨records, detached⟩ := table
  cases restored
  rfl

namespace Resolved

variable {table : Table}

/-- The passes leave a backward field as it is. -/
theorem backward (resolved : table.Resolved) (key : Key) {field : EdgeField}
    (forward : field.isForward = true) :
    table.linkFields.edgesOf key field.inverse = table.edgesOf key field.inverse := by
  have isBackward : field.inverse.isForward = false := by
    rw [EdgeField.isForward_inverse, forward]
    rfl
  have unchanged : table.resolveForwardFields.edgesOf key field.inverse =
      table.edgesOf key field.inverse := by
    rw [(linkedBy_fieldsOf table).backward key field forward]
    apply union_eq_self
    intro backer member
    obtain ⟨-, marked, listed⟩ := mem_backers_iff.mp member
    rw [resolved.forward backer field forward] at listed
    exact resolved.noted backer field key forward marked listed
  rw [linkFields, restoreOrigins_eq_self resolved.restored,
    edgesOf_pruneBackwardFields_backward _ _ isBackward, kept, unchanged, List.filter_eq_self.mpr]
  · exact distinctMembers_eq_self (resolved.distinct key _)
  · intro token member
    rw [keepsBackward_iff, EdgeField.inverse_inverse,
      edgesOf_resolveForwardFields_forward _ _ forward, resolved.forward token field forward]
    exact resolved.answered key field token forward member

theorem edgesOf_linkFields (resolved : table.Resolved) (key : Key) (field : EdgeField) :
    table.linkFields.edgesOf key field = table.edgesOf key field := by
  cases direction : field.isForward with
  | true =>
      rw [edgesOf_linkFields_forward _ _ direction, restoreOrigins_eq_self resolved.restored,
        resolved.forward key field direction]
  | false =>
      rw [← EdgeField.inverse_inverse field]
      apply resolved.backward
      rw [EdgeField.isForward_inverse, direction]
      rfl

theorem linkFields_eq (resolved : table.Resolved) : table.linkFields = table := by
  have frame := table.sameFrame_linkFields
  have records : table.linkFields.records = table.records := by
    apply KeyMap.eq_of_get? frame.keys
    intro key
    have body := table.body_linkFields key
    rw [restoreOrigins_eq_self resolved.restored] at body
    change table.linkFields.get? key = table.get? key
    cases found : table.get? key with
    | none => simpa [found] using body
    | some record =>
        rw [found] at body
        obtain ⟨linked, present, sameBody⟩ := Option.map_eq_some_iff.mp body
        rw [present, Record.eq_of_edges sameBody]
        intro field
        rw [← edgesOf_eq present, ← edgesOf_eq found, resolved.edgesOf_linkFields]
  have detached : table.linkFields.detached = table.detached :=
    frame.detached.trans resolved.restored.symm
  cases linked : table.linkFields
  cases table
  simp_all

/-- A table with nothing left to resolve is resolved to itself. -/
theorem resolve_eq_self (resolved : table.Resolved) : table.resolve = table := by
  rw [resolve, resolved.linkFields_eq]
  apply sweep_of_settled
  rw [List.eq_nil_iff_forall_not_mem]
  intro key listed
  obtain ⟨record, found, unlinked⟩ := mem_spuriousKeys_iff.mp listed
  exact unlinked (resolved.connected key record found)

end Resolved

/-! ## The second run -/

theorem denotation_cases (table : Table) (token : String) (origin : Origin) :
    table.denotation token origin = token ∨
      Key.isPrivate token = false ∧ table.denotation token origin = Key.inOrigin token origin := by
  unfold denotation Key.readings
  cases marked : Key.isPrivate token with
  | true => simp
  | false =>
      by_cases present : table.contains (Key.inOrigin token origin) = true <;> simp [present]

/-- What a token stands for in the light of some origins, in order. -/
def standsFor (table : Table) (key : Key) (field : EdgeField) (origins : List Origin)
    (token : String) : List Key :=
  origins.filterMap fun origin => table.target? key field (origins.length > 1) (token, origin)

theorem targets_eq_flatMap {table : Table} {key : Key} {record : Record}
    (found : table.get? key = some record) (field : EdgeField) :
    table.targets key field =
      distinctMembers
        ((record.edges field).flatMap (table.standsFor key field record.origins)) := by
  simp only [targets, found, Record.readings, List.filterMap_flatMap, List.filterMap_map]
  rfl

section Token

variable {table : Table} {key target : Key} {field : EdgeField} {origins : List Origin}
  {token : String}

theorem mem_standsFor_iff :
    target ∈ table.standsFor key field origins token ↔
      ∃ origin ∈ origins,
        table.target? key field (origins.length > 1) (token, origin) = some target := by
  simp [standsFor]

/-- The first origin by which a token stands for a key. -/
theorem exists_first_reading {reads : Origin → Option Key}
    (stands : target ∈ origins.filterMap reads) :
    ∃ early origin late, origins = early ++ origin :: late ∧ reads origin = some target ∧
      target ∉ early.filterMap reads := by
  have member : some target ∈ origins.map reads := by
    obtain ⟨origin, declared, read⟩ := List.mem_filterMap.mp stands
    exact List.mem_map.mpr ⟨origin, declared, read⟩
  obtain ⟨earlyReads, lateReads, shape, fresh⟩ := List.eq_append_cons_of_mem member
  obtain ⟨early, rest, rfl, rfl, restReads⟩ := List.map_eq_append_iff.mp shape
  obtain ⟨origin, late, rfl, read, -⟩ := List.map_eq_cons_iff.mp restReads
  refine ⟨early, origin, late, rfl, read, fun listed => fresh ?_⟩
  obtain ⟨other, before, otherRead⟩ := List.mem_filterMap.mp listed
  exact List.mem_map.mpr ⟨other, before, otherRead⟩

/-- A private token stands for itself only. -/
theorem eq_of_mem_standsFor_private (marked : Key.isPrivate token = true)
    (member : target ∈ table.standsFor key field origins token) : target = token := by
  obtain ⟨origin, -, reads⟩ := mem_standsFor_iff.mp member
  obtain ⟨denotes, -⟩ := target?_eq_some_iff.mp reads
  rcases table.denotation_cases token origin with same | ⟨unmarked, -⟩
  · exact denotes.symm.trans same
  · rw [marked] at unmarked
    cases unmarked

/-- Only a public key itself stands for it. -/
theorem eq_of_mem_standsFor_public (unmarked : Key.isPrivate target = false)
    (member : target ∈ table.standsFor key field origins token) : token = target := by
  obtain ⟨origin, -, reads⟩ := mem_standsFor_iff.mp member
  obtain ⟨rfl, -⟩ := target?_eq_some_iff.mp reads
  rcases table.denotation_cases token origin with same | ⟨-, found⟩
  · exact same.symm
  · dsimp only at unmarked
    rw [found, Key.isPrivate_inOrigin] at unmarked
    cases unmarked

end Token

theorem contains_of_contains_resolve {table : Table} {key : Key}
    (stays : table.resolve.contains key = true) : table.restoreOrigins.contains key = true := by
  rw [← contains_linkFields]
  exact table.sweptTo_resolve.contains stays

/-- After resolution a forward field holds the targets that stay. -/
theorem edgesOf_resolve_forward {table : Table} {key : Key} {field : EdgeField}
    (forward : field.isForward = true) (stays : table.resolve.contains key = true) :
    table.resolve.edgesOf key field =
      (table.restoreOrigins.targets key field).filter table.resolve.contains := by
  rw [table.sweptTo_resolve.edges key field stays, edgesOf_linkFields_forward _ _ forward]
  apply List.filter_congr
  intro target member
  rw [contains_linkFields, contains_of_mem_targets member]
  rfl

section SecondRun

variable {table : Table} {key : Key} {field : EdgeField} {record : Record} {token : String}
  {origin : Origin} {target : Key}

/-- A target that stays is found again by the same reading. -/
theorem target?_resolve_of_stays (forward : field.isForward = true)
    (found : table.restoreOrigins.get? key = some record) (listed : token ∈ record.edges field)
    (declared : origin ∈ record.origins)
    (reads : table.restoreOrigins.target? key field (record.origins.length > 1) (token, origin) =
      some target)
    (stays : table.resolve.contains target = true) :
    table.resolve.target? key field (record.origins.length > 1) (token, origin) = some target := by
  obtain ⟨denotes, present, answers⟩ := target?_eq_some_iff.mp reads
  refine target?_eq_some_iff.mpr ⟨?_, stays, fun several => ?_⟩
  · -- a private symbol that was not there before is not there now
    have absent : ∀ name, table.restoreOrigins.contains name = false →
        table.resolve.contains name = false := by
      intro name
      rw [← Bool.not_eq_true, ← Bool.not_eq_true, not_imp_not]
      exact contains_of_contains_resolve
    unfold denotation at denotes ⊢
    by_cases before : table.restoreOrigins.contains (Key.readings token origin).2 = true
    · simp only [before, if_true] at denotes
      simp only [denotes, stays, if_true]
    · have gone := absent _ (Bool.eq_false_iff.mpr before)
      simp only [before, Bool.false_eq_true, if_false] at denotes
      simp only [gone, Bool.false_eq_true, if_false]
      exact denotes
  · have linked : target ∈ table.restoreOrigins.targets key field :=
      mem_targets_iff.mpr ⟨record, found, ⟨token, listed, origin, declared, denotes⟩, present,
        fun many => answers (by simpa using many)⟩
    have answered := answers several
    rw [edgesOf_restoreOrigins] at answered
    exact (mem_resolve_of_answered forward linked (.inr answered)).2

/-- A reading that stands for something else than its token stood for it before. -/
theorem target?_of_resolve (forward : field.isForward = true)
    (found : table.restoreOrigins.get? key = some record)
    (reads : table.resolve.target? key field (record.origins.length > 1) (token, origin) =
      some target)
    (different : target ≠ token) :
    table.restoreOrigins.target? key field (record.origins.length > 1) (token, origin) =
      some target := by
  obtain ⟨denotes, stays, answers⟩ := target?_eq_some_iff.mp reads
  have present := contains_of_contains_resolve stays
  refine target?_eq_some_iff.mpr ⟨?_, present, fun several => ?_⟩
  · unfold denotation at denotes ⊢
    by_cases now : table.resolve.contains (Key.readings token origin).2 = true
    · simp only [now, if_true] at denotes
      simp only [denotes, present, if_true]
    · simp only [now, Bool.false_eq_true, if_false] at denotes
      exact absurd denotes.symm different
  · obtain ⟨-, linked, -⟩ := table.sweptTo_resolve.mem_edgesOf_iff.mp (answers several)
    rcases ((mem_linkFields_backward table target key forward).mp linked).1 with
      listed | ⟨-, backed⟩
    · exact listed
    · obtain ⟨stored, storedFound, -, -, storedAnswers⟩ := mem_targets_iff.mp backed
      rw [found] at storedFound
      cases storedFound
      exact storedAnswers (by simpa using several)

/-- A key of a resolved list still stands for itself. -/
theorem mem_standsFor_self (forward : field.isForward = true)
    (found : table.restoreOrigins.get? key = some record)
    (linked : target ∈ table.restoreOrigins.targets key field)
    (stays : table.resolve.contains target = true) :
    target ∈ table.resolve.standsFor key field record.origins target := by
  obtain ⟨stored, storedFound, ⟨token, listed, origin, declared, denotes⟩, present, answers⟩ :=
    mem_targets_iff.mp linked
  rw [found] at storedFound
  cases storedFound
  refine mem_standsFor_iff.mpr ⟨origin, declared, ?_⟩
  rcases table.restoreOrigins.denotation_cases token origin with same | ⟨-, hidden⟩
  · obtain rfl : token = target := same.symm.trans denotes
    refine target?_resolve_of_stays forward found listed declared ?_ stays
    exact target?_eq_some_iff.mpr
      ⟨denotes, present, fun several => answers (by simpa using several)⟩
  · have marked : Key.isPrivate target = true := by
      rw [← denotes, hidden, Key.isPrivate_inOrigin]
    refine target?_eq_some_iff.mpr ⟨?_, stays, fun several => ?_⟩
    · exact (table.resolve.denotation_cases target origin).resolve_right fun ⟨unmarked, _⟩ => by
        rw [marked] at unmarked
        cases unmarked
    · have answered := answers (by simpa using several)
      rw [edgesOf_restoreOrigins] at answered
      exact (mem_resolve_of_answered forward linked (.inr answered)).2

/-- Apart from its own name, a token stands for what it stood for, if that stays. -/
theorem target?_resolve_iff (forward : field.isForward = true)
    (found : table.restoreOrigins.get? key = some record) (listed : token ∈ record.edges field)
    (declared : origin ∈ record.origins) (different : target ≠ token) :
    table.resolve.target? key field (record.origins.length > 1) (token, origin) = some target ↔
      table.restoreOrigins.target? key field (record.origins.length > 1) (token, origin) =
          some target ∧ table.resolve.contains target = true := by
  constructor
  · intro reads
    exact ⟨target?_of_resolve forward found reads different, (target?_eq_some_iff.mp reads).2.1⟩
  · rintro ⟨reads, stays⟩
    exact target?_resolve_of_stays forward found listed declared reads stays

/-- What a public token brings up again goes on from where the token stands in its list. -/
theorem union_standsFor_prefix (forward : field.isForward = true)
    (found : table.restoreOrigins.get? key = some record)
    (linked : target ∈ table.restoreOrigins.targets key field)
    (stays : table.resolve.contains target = true) (unmarked : Key.isPrivate target = false) :
    ∃ front back,
      (table.restoreOrigins.targets key field).filter table.resolve.contains =
        front ++ target :: back ∧
      union front (table.resolve.standsFor key field record.origins target) <+:
        front ++ target :: back := by
  rw [targets_eq_flatMap found] at linked ⊢
  obtain ⟨token, listed, stands⟩ := List.mem_flatMap.mp (mem_distinctMembers.mp linked)
  obtain rfl := eq_of_mem_standsFor_public unmarked stands
  -- the first place of the token in its list, and the first origin by which it stood for itself
  obtain ⟨before, after, tokens, fresh⟩ := List.eq_append_cons_of_mem listed
  obtain ⟨early, origin, late, origins, reads, unread⟩ := exists_first_reading stands
  let stood := table.restoreOrigins.standsFor key field record.origins
  let old := fun origin =>
    table.restoreOrigins.target? key field (record.origins.length > 1) (token, origin)
  let new := fun origin =>
    table.resolve.target? key field (record.origins.length > 1) (token, origin)
  change old origin = some token at reads
  have declared : ∀ place ∈ early ++ origin :: late, place ∈ record.origins := by
    rw [origins]
    exact fun _ member => member
  have readsAgain : new origin = some token :=
    target?_resolve_of_stays forward found listed (declared origin (by simp)) reads stays
  have agree : ∀ place ∈ early ++ origin :: late, ∀ other, other ≠ token →
      (new place = some other ↔ old place = some other ∧ table.resolve.contains other = true) :=
    fun place member other different =>
      target?_resolve_iff forward found listed (declared place member) different
  have stoodFor : stood token = early.filterMap old ++ token :: late.filterMap old := by
    change record.origins.filterMap old = _
    rw [origins, List.filterMap_append, List.filterMap_cons_some reads]
  have standsNow : table.resolve.standsFor key field record.origins token =
      early.filterMap new ++ token :: late.filterMap new := by
    change record.origins.filterMap new = _
    rw [origins, List.filterMap_append, List.filterMap_cons_some readsAgain]
  have whole : distinctMembers ((record.edges field).flatMap stood) =
      union (distinctMembers (before.flatMap stood))
        (early.filterMap old ++ token :: (late.filterMap old ++ after.flatMap stood)) := by
    rw [tokens, List.flatMap_append, List.flatMap_cons, stoodFor, distinctMembers, union_append]
    simp only [distinctMembers, List.append_assoc, List.cons_append]
  rw [whole, standsNow]
  apply filter_union_split _ unread stays
  · intro other member
    obtain ⟨place, inEarly, read⟩ := List.mem_filterMap.mp member
    by_cases same : other = token
    · exact .inr same
    · obtain ⟨readBefore, otherStays⟩ :=
        (agree place (List.mem_append_left _ inEarly) other same).mp read
      exact .inl (List.mem_filter.mpr
        ⟨List.mem_filterMap.mpr ⟨place, inEarly, readBefore⟩, otherStays⟩)
  · simp only [List.filter_filterMap]
    apply List.filterMap_congr
    intro place inLate
    ext other
    simp only [Option.filter_eq_some_iff]
    by_cases same : other = token
    · simp [same]
    · simpa [same] using agree place (by simp [inLate]) other same
  · rw [mem_distinctMembers, List.mem_flatMap]
    rintro ⟨other, member, brought⟩
    exact fresh (eq_of_mem_standsFor_public unmarked brought ▸ member)

/-- The tokens of a resolved forward field stand for its keys, in order. -/
theorem targets_resolve (table : Table) (key : Key) {field : EdgeField}
    (forward : field.isForward = true) :
    table.resolve.targets key field = table.resolve.edgesOf key field := by
  cases now : table.resolve.get? key with
  | none =>
      rw [targets_of_absent now, edgesOf, now]
      rfl
  | some resolved =>
      have present : table.resolve.contains key = true := (contains_iff _ _).mpr ⟨resolved, now⟩
      obtain ⟨record, found, sameBody⟩ := body_of_resolve now
      rw [targets_eq_flatMap now, Record.origins_eq_of_body sameBody, ← edgesOf_eq now]
      have kept : ∀ target ∈ table.resolve.edgesOf key field,
          target ∈ table.restoreOrigins.targets key field ∧
            table.resolve.contains target = true := by
        intro target member
        rwa [edgesOf_resolve_forward forward present, List.mem_filter] at member
      apply distinctMembers_flatMap_eq_self (table.nodup_resolve key field)
      · intro target member
        obtain ⟨linked, stays⟩ := kept target member
        have itself := mem_standsFor_self forward found linked stays
        refine ⟨itself, ?_⟩
        cases marked : Key.isPrivate target with
        | true =>
            obtain ⟨front, back, split⟩ := List.append_of_mem member
            obtain ⟨absent, -⟩ := not_mem_of_nodup_split (split ▸ table.nodup_resolve key field)
            refine ⟨front, back, split, ?_⟩
            rw [split, union_of_forall_eq (fun other => eq_of_mem_standsFor_private marked) itself
              absent, List.prefix_append_right_inj, List.cons_prefix_cons]
            exact ⟨rfl, List.nil_prefix⟩
        | false =>
            rw [edgesOf_resolve_forward forward present]
            obtain ⟨front, back, split, goesOn⟩ :=
              union_standsFor_prefix forward found linked stays marked
            exact ⟨front, back, split, split ▸ goesOn⟩
      · intro target member
        cases marked : Key.isPrivate target with
        | true => exact .inl fun other stands => eq_of_mem_standsFor_private marked stands
        | false => exact .inr fun other _ stands => eq_of_mem_standsFor_public marked stands

end SecondRun

/-- Resolution leaves nothing to resolve. -/
theorem resolved_resolve (table : Table) : table.resolve.Resolved where
  restored := (detached_sweep _).trans table.sameFrame_linkFields.detached
  forward key field forward := table.targets_resolve key forward
  noted key field target forward marked edge := by
    obtain ⟨record, found⟩ := (contains_iff _ _).mp (contains_of_mem_edgesOf edge)
    exact forward_answered forward found (.inl marked) edge
  answered key field token forward edge := by
    obtain ⟨-, linked, -⟩ := table.sweptTo_resolve.mem_edgesOf_iff.mp edge
    refine ((mem_linkFields_backward table key token forward).mp linked).2.imp_right fun named => ?_
    have answer : key ∈ table.linkFields.edgesOf token field := by
      rwa [edgesOf_linkFields_forward table token forward]
    exact inverse_mem_resolve edge (contains_of_mem_edgesOf answer) answer
  distinct := table.nodup_resolve
  connected key record found := hasEdges_of_sweep found

/-- Resolution is idempotent: keys, records and lists stay as they are, in their order. -/
theorem resolve_resolve (table : Table) : table.resolve.resolve = table.resolve :=
  (resolved_resolve table).resolve_eq_self

end Table

end CallGraph
