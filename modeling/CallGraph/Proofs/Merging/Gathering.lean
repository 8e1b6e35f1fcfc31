import CallGraph.Proofs.Merging.Outcome

/-!
# Merging several records into one

Records that denote the same and are seen by the same may be merged in any order, also by way of
keys that were merged away before.  What a merge takes from one key it gives to another, so the
members of all lists together stay the same at every step; in the end they are all at the key that
is left, each list being the one this key began with, followed by what it lacked.
-/

namespace CallGraph

/-! ## Lists that grow at their end -/

/-- A list becomes another one by new members at its end, each once. -/
def Lengthens (before after : List String) : Prop :=
  ∃ added, after = before ++ added ∧ added.Nodup ∧ ∀ item ∈ added, item ∉ before

namespace Lengthens

variable {before middle after : List String}

theorem refl (members : List String) : Lengthens members members :=
  ⟨[], by simp⟩

theorem trans (first : Lengthens before middle) (second : Lengthens middle after) :
    Lengthens before after := by
  obtain ⟨early, rfl, earlyDistinct, earlyNew⟩ := first
  obtain ⟨late, rfl, lateDistinct, lateNew⟩ := second
  refine ⟨early ++ late, by simp, ?_, ?_⟩
  · rw [List.nodup_append]
    refine ⟨earlyDistinct, lateDistinct, ?_⟩
    rintro item inEarly other inLate rfl
    exact lateNew item inLate (List.mem_append_right _ inEarly)
  · intro item member
    rcases List.mem_append.mp member with inEarly | inLate
    · exact earlyNew item inEarly
    · exact fun inBefore => lateNew item inLate (List.mem_append_left _ inBefore)

theorem union (members items : List String) : Lengthens members (union members items) := by
  induction items generalizing members with
  | nil => exact refl members
  | cons head items induction =>
      rw [CallGraph.union]
      split
      · exact induction members
      · next absent =>
          have longer : Lengthens members (members ++ [head]) := ⟨[head], rfl, by simp, by simpa⟩
          exact longer.trans (induction _)

/-- Lists that one list became are the same up to their order if they have the same members. -/
theorem perm {left right : List String} (toLeft : Lengthens before left)
    (toRight : Lengthens before right) (same : ∀ item, item ∈ left ↔ item ∈ right) :
    left.Perm right := by
  obtain ⟨leftAdded, rfl, leftDistinct, leftNew⟩ := toLeft
  obtain ⟨rightAdded, rfl, rightDistinct, rightNew⟩ := toRight
  apply List.Perm.append_left
  rw [List.perm_ext_iff_of_nodup leftDistinct rightDistinct]
  intro item
  have members := same item
  rw [List.mem_append, List.mem_append] at members
  constructor
  · intro inLeft
    exact (members.mp (.inr inLeft)).resolve_left (leftNew item inLeft)
  · intro inRight
    exact (members.mpr (.inr inRight)).resolve_left (rightNew item inRight)

end Lengthens

namespace Table

/-- The list of a key in a field; a key without record has none. -/
def listOf (table : Table) (key : Key) (field : ListField) : List String :=
  ((table.get? key).map (·.items field)).getD []

theorem mem_listOf_iff {table : Table} {key : Key} {field : ListField} {item : String} :
    item ∈ table.listOf key field ↔
      ∃ record, table.get? key = some record ∧ item ∈ record.items field := by
  unfold listOf
  cases table.get? key <;> simp

/-! ## One merge -/

section Merge

variable {table after : Table} {target source : Key}

/-- A merge takes the members of the source to the target. -/
theorem mem_listOf_merge (merged : merge target source table = .ok () after)
    (different : target ≠ source) (key : Key) (field : ListField) (item : String) :
    item ∈ after.listOf key field ↔
      if key = target then item ∈ table.listOf target field ∨ item ∈ table.listOf source field
      else key ≠ source ∧ item ∈ table.listOf key field := by
  obtain ⟨incoming, found, records⟩ := get?_merge merged different
  unfold listOf
  rw [records]
  by_cases isTarget : key = target
  · cases stored : table.get? target <;>
      simp [isTarget, found, Record.items_absorb, mem_union]
  · by_cases isSource : key = source
    · simp [isSource, different.symm]
    · simp [isTarget, isSource]

theorem keys_merge (merged : merge target source table = .ok () after)
    (different : target ≠ source) :
    after.keys =
      table.keys.filter (· ≠ source) ++ if table.contains target then [] else [target] := by
  obtain ⟨incoming, found, -⟩ := merge_ok_iff.mp merged
  have outcome := merged_of_ok found merged
  cases stored : table.get? target with
  | none =>
      rw [if_neg ((table.not_contains_iff target).mpr stored), keys, KeyMap.keys]
      change after.entries.map Prod.fst = _
      rw [outcome.moved different stored, List.map_append, ← entries_erase, ← keys_erase]
      rfl
  | some record =>
      rw [if_pos ((table.contains_iff target).mpr ⟨record, stored⟩), List.append_nil,
        (outcome.joined different record stored).1]

/-- What holds of the records of some keys, and is kept when a record takes in another one, holds of
them after two of these keys were merged. -/
theorem forall_get?_merge {holds : Record → Prop} {keys : List Key}
    (absorbs : ∀ record incoming : Record, holds record → holds (record.absorb incoming))
    (merged : merge target source table = .ok () after) (different : target ≠ source)
    (targetAmong : target ∈ keys) (sourceAmong : source ∈ keys)
    (before : ∀ key ∈ keys, ∀ record, table.get? key = some record → holds record) :
    ∀ key ∈ keys, ∀ record, after.get? key = some record → holds record := by
  obtain ⟨incoming, found, records⟩ := get?_merge merged different
  intro key member record given
  rw [records] at given
  split at given
  · cases stored : table.get? target with
    | none =>
        rw [stored] at given
        cases given
        exact before source sourceAmong incoming found
    | some known =>
        rw [stored] at given
        cases given
        exact absorbs known incoming (before target targetAmong known stored)
  · split at given
    · cases given
    · exact before key member record given

/-- Merging two of some keys neither loses nor invents a member of their lists. -/
theorem exists_mem_listOf_merge {keys : List Key}
    (merged : merge target source table = .ok () after) (different : target ≠ source)
    (targetAmong : target ∈ keys) (sourceAmong : source ∈ keys) (field : ListField)
    (item : String) :
    (∃ key ∈ keys, item ∈ after.listOf key field) ↔
      ∃ key ∈ keys, item ∈ table.listOf key field := by
  constructor
  · rintro ⟨key, member, listed⟩
    rw [mem_listOf_merge merged different] at listed
    split at listed
    · rcases listed with atTarget | atSource
      · exact ⟨target, targetAmong, atTarget⟩
      · exact ⟨source, sourceAmong, atSource⟩
    · exact ⟨key, member, listed.2⟩
  · rintro ⟨key, member, listed⟩
    by_cases isTarget : key = target
    · subst isTarget
      refine ⟨key, member, (mem_listOf_merge merged different _ _ _).mpr ?_⟩
      rw [if_pos rfl]
      exact .inl listed
    · by_cases isSource : key = source
      · subst isSource
        refine ⟨target, targetAmong, (mem_listOf_merge merged different _ _ _).mpr ?_⟩
        rw [if_pos rfl]
        exact .inr listed
      · refine ⟨key, member, (mem_listOf_merge merged different _ _ _).mpr ?_⟩
        rw [if_neg isTarget]
        exact ⟨isSource, listed⟩

/-- Keys that are not touched by a merge stay in their order. -/
theorem filter_keys_merge {keep : Key → Bool} (merged : merge target source table = .ok () after)
    (different : target ≠ source) (sourceOut : keep source = false)
    (targetOut : table.contains target = false → keep target = false) :
    after.keys.filter keep = table.keys.filter keep := by
  have newcomer : (if table.contains target then [] else [target]).filter keep = [] := by
    split
    · rfl
    · next absent => simp [targetOut (Bool.eq_false_iff.mpr absent)]
  rw [keys_merge merged different, List.filter_append, newcomer, List.append_nil,
    List.filter_filter]
  apply List.filter_congr
  intro key _
  by_cases isSource : key = source
  · simp [isSource, sourceOut]
  · simp [isSource]

end Merge

/-! ## Any number of merges -/

/-- Merge sources into targets, one pair after the other. -/
def mergeAll : List (Key × Key) → Action Unit
  | [] => pure ()
  | (target, source) :: merges => do
      merge target source
      mergeAll merges

theorem mergeAll_cons_ok_iff {target source : Key} {merges : List (Key × Key)}
    {table after : Table} :
    mergeAll ((target, source) :: merges) table = .ok () after ↔
      ∃ middle, merge target source table = .ok () middle ∧
        mergeAll merges middle = .ok () after := by
  change EStateM.bind (merge target source) (fun _ => mergeAll merges) table = _ ↔ _
  unfold EStateM.bind
  cases merge target source table <;> simp

/-- Every merge finds a record at its source. -/
def SourcesPresent : List (Key × Key) → Table → Prop
  | [], _ => True
  | (target, source) :: merges, table =>
      table.contains source = true ∧
        ∀ after, merge target source table = .ok () after → SourcesPresent merges after

/-- Merges that gather the records of some keys at one key, the centre. -/
structure Gathering (table : Table) (centre : Key) (others : List Key) (own : Record)
    (merges : List (Key × Key)) : Prop where
  /-- The centre has a record. -/
  stored : table.get? centre = some own
  /-- The other keys have records that denote the same and are seen by the same. -/
  alike : ∀ key ∈ others, ∃ record, table.get? key = some record ∧
    record.kind = own.kind ∧ record.visibility = own.visibility
  /-- Only these keys are merged. -/
  among : ∀ pair ∈ merges, pair.1 ∈ centre :: others ∧ pair.2 ∈ centre :: others
  /-- Whatever is merged has a record by then. -/
  present : SourcesPresent merges table
  /-- The centre is never merged away. -/
  kept : ∀ pair ∈ merges, pair.2 = centre → pair.1 = centre
  /-- In the end only the centre is left. -/
  alone : ∀ after, mergeAll merges table = .ok () after →
    ∀ key ∈ others, key ≠ centre → after.get? key = none

/-- A table on the way from `start`: some of the records were merged already. -/
structure Halfway (start : Table) (centre : Key) (others : List Key) (own : Record)
    (table : Table) : Prop where
  /-- The centre has its name, and its lists grew at their end. -/
  grown : ∃ record, table.get? centre = some record ∧ record.name = own.name ∧
    ∀ field, Lengthens (own.items field) (record.items field)
  /-- All records that are left denote the same and are seen by the same. -/
  alike : ∀ key ∈ centre :: others, ∀ record, table.get? key = some record →
    record.kind = own.kind ∧ record.visibility = own.visibility
  /-- No member of a list was lost and none was invented. -/
  members : ∀ field item, (∃ key ∈ centre :: others, item ∈ table.listOf key field) ↔
    ∃ key ∈ centre :: others, item ∈ start.listOf key field
  /-- The other records are untouched. -/
  outside : ∀ key, key ∉ centre :: others → table.get? key = start.get? key
  /-- The keys that stay are in their order. -/
  keys : (table.keys.filter fun key => key = centre ∨ key ∉ others) =
    start.keys.filter fun key => key = centre ∨ key ∉ others
  /-- The origins of dropped symbols are untouched. -/
  detached : table.detached = start.detached

namespace Halfway

variable {start table after : Table} {centre target source : Key} {others : List Key} {own : Record}

theorem ofStart (stored : start.get? centre = some own)
    (alike : ∀ key ∈ others, ∃ record, start.get? key = some record ∧
      record.kind = own.kind ∧ record.visibility = own.visibility) :
    Halfway start centre others own start where
  grown := ⟨own, stored, rfl, fun _ => .refl _⟩
  alike key member record found := by
    rcases List.mem_cons.mp member with rfl | other
    · obtain rfl : own = record := Option.some.inj (stored.symm.trans found)
      exact ⟨rfl, rfl⟩
    · obtain ⟨known, knownFound, same⟩ := alike key other
      obtain rfl : known = record := Option.some.inj (knownFound.symm.trans found)
      exact same
  members _ _ := Iff.rfl
  outside _ _ := rfl
  keys := rfl
  detached := rfl

/-- Merging two of the keys, the centre not away, leads on. -/
theorem step (halfway : Halfway start centre others own table)
    (targetAmong : target ∈ centre :: others) (sourceAmong : source ∈ centre :: others)
    (kept : source = centre → target = centre) (different : target ≠ source)
    (merged : merge target source table = .ok () after) :
    Halfway start centre others own after := by
  have sourceElsewhere : source ≠ centre := fun same => different ((kept same).trans same.symm)
  have sourceOther : source ∈ others := (List.mem_cons.mp sourceAmong).resolve_left sourceElsewhere
  obtain ⟨record, stored, name, lists⟩ := halfway.grown
  refine
    { grown := ?_
      alike := ?_
      members := fun field item =>
        (exists_mem_listOf_merge merged different targetAmong sourceAmong field item).trans
          (halfway.members field item)
      outside := ?_
      keys := ?_
      detached := (detached_merge merged).trans halfway.detached }
  · obtain ⟨incoming, -, records⟩ := get?_merge merged different
    by_cases isTarget : centre = target
    · subst isTarget
      refine ⟨record.absorb incoming, by rw [records, if_pos rfl, stored]; rfl, ?_, ?_⟩
      · exact (record.joins_absorb incoming).name.trans name
      · intro field
        rw [Record.items_absorb]
        exact (lists field).trans (.union _ _)
    · refine ⟨record, ?_, name, lists⟩
      rw [records, if_neg isTarget, if_neg sourceElsewhere.symm, stored]
  · refine forall_get?_merge (fun known incoming same => ?_) merged different targetAmong
      sourceAmong halfway.alike
    rw [(known.joins_absorb incoming).kind, (known.joins_absorb incoming).visibility]
    exact same
  · intro key elsewhere
    have notTarget : key ≠ target := fun same => elsewhere (same ▸ targetAmong)
    have notSource : key ≠ source := fun same => elsewhere (same ▸ sourceAmong)
    rw [get?_merge_of_ne merged notTarget notSource, halfway.outside key elsewhere]
  · refine (filter_keys_merge merged different ?_ fun absent => ?_).trans halfway.keys
    · simp [sourceElsewhere, sourceOther]
    · have notCentre : target ≠ centre := by
        rintro rfl
        rw [(table.contains_iff target).mpr ⟨record, stored⟩] at absent
        cases absent
      simp [notCentre, (List.mem_cons.mp targetAmong).resolve_left notCentre]

/-- All merges succeed, and lead on. -/
theorem run {merges : List (Key × Key)} (halfway : Halfway start centre others own table)
    (among : ∀ pair ∈ merges, pair.1 ∈ centre :: others ∧ pair.2 ∈ centre :: others)
    (present : SourcesPresent merges table)
    (kept : ∀ pair ∈ merges, pair.2 = centre → pair.1 = centre) :
    ∃ after, mergeAll merges table = .ok () after ∧ Halfway start centre others own after := by
  induction merges generalizing table with
  | nil => exact ⟨table, rfl, halfway⟩
  | cons pair merges induction =>
      obtain ⟨target, source⟩ := pair
      obtain ⟨targetAmong, sourceAmong⟩ := among _ List.mem_cons_self
      obtain ⟨contained, laterPresent⟩ := present
      obtain ⟨incoming, found⟩ := (table.contains_iff source).mp contained
      obtain ⟨incomingKind, incomingVisibility⟩ := halfway.alike source sourceAmong incoming found
      have agree (record : Record) (stored : table.get? target = some record) :
          record.kind = incoming.kind ∧ record.visibility = incoming.visibility := by
        obtain ⟨kind, visibility⟩ := halfway.alike target targetAmong record stored
        exact ⟨kind.trans incomingKind.symm, visibility.trans incomingVisibility.symm⟩
      obtain ⟨middle, merged⟩ := exists_merge found fun _ => agree
      have onward : Halfway start centre others own middle := by
        by_cases same : target = source
        · rw [(merged_of_ok found merged).ontoItself same]
          exact halfway
        · exact halfway.step targetAmong sourceAmong (kept _ List.mem_cons_self) same merged
      obtain ⟨after, ok, final⟩ := induction onward
        (fun other member => among other (List.mem_cons_of_mem _ member))
        (laterPresent middle merged) fun other member => kept other (List.mem_cons_of_mem _ member)
      exact ⟨after, mergeAll_cons_ok_iff.mpr ⟨middle, merged, ok⟩, final⟩

/-- Once only the centre is left, its lists have the members of all lists. -/
theorem mem_items_iff (halfway : Halfway start centre others own table) {joined : Record}
    (found : table.get? centre = some joined)
    (alone : ∀ key ∈ others, key ≠ centre → table.get? key = none) (field : ListField)
    (item : String) :
    item ∈ joined.items field ↔ ∃ key ∈ centre :: others, item ∈ start.listOf key field := by
  rw [← halfway.members]
  constructor
  · intro listed
    exact ⟨centre, List.mem_cons_self, mem_listOf_iff.mpr ⟨joined, found, listed⟩⟩
  · rintro ⟨key, member, listed⟩
    obtain ⟨record, stored, inRecord⟩ := mem_listOf_iff.mp listed
    by_cases same : key = centre
    · subst same
      obtain rfl : joined = record := Option.some.inj (found.symm.trans stored)
      exact inRecord
    · rw [alone key ((List.mem_cons.mp member).resolve_left same) same] at stored
      cases stored

/-- Once only the centre is left, the keys are those that stay. -/
theorem keys_eq (halfway : Halfway start centre others own table)
    (alone : ∀ key ∈ others, key ≠ centre → table.get? key = none) :
    table.keys = start.keys.filter fun key => key = centre ∨ key ∉ others := by
  rw [← halfway.keys, eq_comm, List.filter_eq_self]
  intro key member
  by_cases same : key = centre
  · simp [same]
  · have other : key ∉ others := by
      intro among
      obtain ⟨record, stored⟩ := (table.contains_iff key).mp ((table.mem_keys_iff key).mp member)
      rw [alone key among same] at stored
      cases stored
    simp [other]

end Halfway

/-- What is left once the records of some keys were gathered at one of them. -/
structure Gathered (table : Table) (centre : Key) (others : List Key) (own : Record)
    (after : Table) (joined : Record) : Prop where
  /-- The record at the centre. -/
  found : after.get? centre = some joined
  /-- It has the name of the centre. -/
  name : joined.name = own.name
  /-- It denotes what the centre denoted. -/
  kind : joined.kind = own.kind
  /-- It is seen by those who saw the centre. -/
  visibility : joined.visibility = own.visibility
  /-- Its lists have the members of all the records. -/
  members : ∀ field item, item ∈ joined.items field ↔
    ∃ key ∈ centre :: others, ∃ record, table.get? key = some record ∧ item ∈ record.items field
  /-- Its lists are told up to their order, however the records were merged. -/
  perm : ∀ field, (joined.items field).Perm
    (union (own.items field) (others.flatMap fun key => table.listOf key field))
  /-- The centre and the keys that were not merged stay in their places. -/
  keys : after.keys = table.keys.filter fun key => key = centre ∨ key ∉ others
  /-- All other records are as they were. -/
  outside : ∀ key, key ∉ centre :: others → after.get? key = table.get? key
  /-- The origins of dropped symbols are untouched. -/
  detached : after.detached = table.detached

/-- Records that agree may be merged in any order: every merge succeeds, and what is left does not
depend on the order, apart from the order inside the lists. -/
theorem gathered_of_mergeAll {table : Table} {centre : Key} {others : List Key} {own : Record}
    {merges : List (Key × Key)} (gathering : Gathering table centre others own merges) :
    ∃ after joined, mergeAll merges table = .ok () after ∧
      Gathered table centre others own after joined := by
  obtain ⟨after, ok, halfway⟩ := (Halfway.ofStart gathering.stored gathering.alike).run
    gathering.among gathering.present gathering.kept
  obtain ⟨joined, found, name, lists⟩ := halfway.grown
  obtain ⟨kind, visibility⟩ := halfway.alike centre List.mem_cons_self joined found
  have alone := gathering.alone after ok
  have members := halfway.mem_items_iff found alone
  refine ⟨after, joined, ok, found, name, kind, visibility, ?_, ?_, halfway.keys_eq alone,
    halfway.outside, halfway.detached⟩
  · simpa only [mem_listOf_iff] using members
  · intro field
    refine (lists field).perm (.union _ _) fun item => ?_
    have centreList : table.listOf centre field = own.items field := by
      simp [listOf, gathering.stored]
    rw [members, mem_union, List.mem_flatMap, ← centreList]
    simp only [List.mem_cons, exists_eq_or_imp]

/-- Three declarations of one function and a caller. -/
def threeCopies : Table :=
  ofRecords
    [("f@a.c",
      { name := "f", kind := some .function, origins := ["a.c"], calls := ["g"]
        referring := ["v"] }),
     ("f@b.c",
      { name := "f", kind := some .function, origins := ["b.c"], calls := ["h", "h"]
        calledBy := ["main"] }),
     ("main", { name := "main", kind := some .function, calls := ["f@b.c"] }),
     ("f@c.c",
      { name := "f_c", kind := some .function, origins := ["c.c", "a.c"], calls := ["g"]
        references := ["w"] })]

/-- The first is merged into the second, both go back to the key of the first, and from there to the
third. -/
def detour : List (Key × Key) :=
  [("f@b.c", "f@a.c"), ("f@a.c", "f@b.c"), ("f@c.c", "f@a.c")]

theorem gathered_threeCopies :
    ∃ own after joined, threeCopies.get? "f@c.c" = some own ∧
      mergeAll detour threeCopies = .ok () after ∧
        Gathered threeCopies "f@c.c" ["f@a.c", "f@b.c"] own after joined := by
  have alike : ∀ key ∈ ["f@a.c", "f@b.c"], ∃ record, threeCopies.get? key = some record ∧
      record.kind = some .function ∧ record.visibility = none := by
    simp only [List.forall_mem_cons]
    exact ⟨⟨_, rfl, rfl, rfl⟩, ⟨_, rfl, rfl, rfl⟩, nofun⟩
  have present : SourcesPresent detour threeCopies := by
    refine ⟨by decide, fun once merged => ?_⟩
    cases merged
    refine ⟨by decide, fun twice merged => ?_⟩
    cases merged
    exact ⟨by decide, fun _ _ => trivial⟩
  have alone : ∀ after, mergeAll detour threeCopies = .ok () after →
      ∀ key ∈ ["f@a.c", "f@b.c"], key ≠ "f@c.c" → after.get? key = none := by
    intro after ran
    cases ran
    decide
  obtain ⟨after, joined, ok, gathered⟩ := gathered_of_mergeAll
    { stored := rfl, alike, among := by decide, present, kept := by decide, alone }
  exact ⟨_, after, joined, rfl, ok, gathered⟩

end Table

end CallGraph
