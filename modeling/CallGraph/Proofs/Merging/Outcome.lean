import CallGraph.Proofs.Lookup
import CallGraph.Table.Format

/-!
# The outcomes of a merge

A merge fails in two ways only, and then leaves the table as it was: the source has no record, or
the two records disagree on what they denote or on who sees it.  In every other case it succeeds.
The target then has what the source had, and all else stays where it was.  A record has five lists,
its origins and its four lists of edges; each of them grows at its end, by what it lacked.
-/

namespace CallGraph

/-- The members of `items` that `members` lacks, each once, in the order of their first
occurrence. -/
def newMembers (members items : List String) : List String :=
  (items.filter fun item => item ∉ members).eraseDups

theorem union_eq_append_newMembers (members items : List String) :
    union members items = members ++ newMembers members items := by
  induction items generalizing members with
  | nil => simp [union, newMembers]
  | cons head items induction =>
      rw [union]
      split
      · next present => simp [induction, newMembers, present]
      · next absent =>
          -- after its first occurrence `head` counts as a member
          have later : (items.filter fun item => item ∉ members ++ [head]) =
              (items.filter fun item => item ∉ members).filter fun item => !item == head := by
            rw [List.filter_filter]
            congr 1
            funext item
            by_cases same : item = head <;> simp [same]
          rw [induction, newMembers, newMembers, later,
            List.filter_cons_of_pos (by simpa using absent), List.eraseDups_cons, List.append_assoc]
          rfl

namespace Record

theorem items_absorb (record other : Record) (field : ListField) :
    (record.absorb other).items field = union (record.items field) (other.items field) := by
  cases field with
  | edges field => exact edges_absorb record other field
  | origins => exact origins_absorb record other

/-- What a record becomes when it takes in another one. -/
structure Joins (record incoming joined : Record) : Prop where
  /-- It keeps its name. -/
  name : joined.name = record.name
  /-- It denotes what it denoted. -/
  kind : joined.kind = record.kind
  /-- It is seen by those who saw it. -/
  visibility : joined.visibility = record.visibility
  /-- Its lists grow at their end, by what they lacked. -/
  items : ∀ field, joined.items field =
    record.items field ++ newMembers (record.items field) (incoming.items field)

theorem joins_absorb (record incoming : Record) :
    Joins record incoming (record.absorb incoming) where
  name := (name_eq_of_body (body_absorb record incoming)).trans rfl
  kind := (kind_eq_of_body (body_absorb record incoming)).trans rfl
  visibility := (visibility_eq_of_body (body_absorb record incoming)).trans rfl
  items field := by rw [items_absorb, union_eq_append_newMembers]

end Record

/-- Whether an operation fails because two records disagree, not for want of a key or of a free
one. -/
def TableError.isConflict : TableError → Bool
  | kindConflict .. | visibilityConflict .. => true
  | absent _ | taken _ | noSource .. => false

namespace Table

variable {table after : Table} {target source : Key}

/-- The ways in which merging fails; none of them changes the table. -/
theorem merge_error_iff {error : TableError} :
    merge target source table = .error error after ↔
      after = table ∧
        (table.get? source = none ∧ error = .noSource target source ∨
          target ≠ source ∧ ∃ record incoming,
            table.get? target = some record ∧ table.get? source = some incoming ∧
              (record.kind ≠ incoming.kind ∧
                  error = .kindConflict target source record.kind incoming.kind ∨
                record.kind = incoming.kind ∧ record.visibility ≠ incoming.visibility ∧
                  error =
                    .visibilityConflict target source record.visibility incoming.visibility)) := by
  unfold merge
  cases sourceFound : table.get? source with
  | none => simp [eq_comm, and_comm]
  | some incoming =>
      by_cases same : target = source
      · simp [same]
      · cases targetFound : table.get? target with
        | none =>
            have free := (table.not_contains_iff target).mpr targetFound
            simp [same, rekey_eq, sourceFound, free]
        | some record =>
            by_cases kinds : record.kind = incoming.kind
            · by_cases visibilities : record.visibility = incoming.visibility
              · simp [same, kinds, visibilities]
              · simp [same, kinds, visibilities, @eq_comm _ error, @eq_comm _ after, and_comm]
            · simp [same, kinds, @eq_comm _ error, @eq_comm _ after, and_comm]

/-- Merging succeeds with a source that is there and two records that agree, where there are two. -/
theorem exists_merge {incoming : Record} (found : table.get? source = some incoming)
    (agree : target ≠ source → ∀ record, table.get? target = some record →
      record.kind = incoming.kind ∧ record.visibility = incoming.visibility) :
    ∃ after, merge target source table = .ok () after := by
  by_cases same : target = source
  · exact ⟨table, merge_ok_iff.mpr ⟨incoming, found, .inl ⟨same, rfl⟩⟩⟩
  · cases stored : table.get? target with
    | none => exact ⟨_, merge_ok_iff.mpr ⟨incoming, found, .inr ⟨same, .inl ⟨stored, rfl⟩⟩⟩⟩
    | some record =>
        obtain ⟨kinds, visibilities⟩ := agree same record stored
        exact ⟨_, merge_ok_iff.mpr
          ⟨incoming, found, .inr ⟨same, .inr ⟨record, stored, kinds, visibilities, rfl⟩⟩⟩⟩

/-- What a merge leaves of a table in which the source has the record `incoming`. -/
structure Merged (table : Table) (target source : Key) (incoming : Record) (after : Table) :
    Prop where
  /-- A merge of a key into itself changes nothing. -/
  ontoItself : target = source → after = table
  /-- A target without record gets the one of the source, as the last entry. -/
  moved : target ≠ source → table.get? target = none →
    after.entries = (table.entries.filter fun entry => entry.1 ≠ source) ++ [(target, incoming)]
  /-- A target with a record stays in its place and takes in the one of the source. -/
  joined : target ≠ source → ∀ record, table.get? target = some record →
    after.keys = table.keys.filter (· ≠ source) ∧
      ∃ joined, after.get? target = some joined ∧ Record.Joins record incoming joined
  /-- The source is gone. -/
  gone : target ≠ source → after.get? source = none
  /-- All other keys have the records they had. -/
  others : ∀ key, key ≠ target → key ≠ source → after.get? key = table.get? key
  /-- The origins of dropped symbols are untouched. -/
  detached : after.detached = table.detached

theorem entries_put_of_absent {key : Key} {record : Record} (absent : table.get? key = none) :
    (table.put key record).entries = table.entries ++ [(key, record)] := by
  refine KeyMap.entries_insert_of_not_mem _ _ fun present => ?_
  obtain ⟨stored, found⟩ := (table.records.mem_keys_iff key).mp present
  rw [Table.get?, found] at absent
  cases absent

theorem entries_erase (table : Table) (key : Key) :
    (table.erase key).entries = table.entries.filter fun entry => entry.1 ≠ key :=
  List.filter_congr fun _ _ => decide_not.symm

theorem keys_erase (table : Table) (key : Key) :
    (table.erase key).keys = table.keys.filter (· ≠ key) :=
  (KeyMap.keys_erase table.records key).trans (List.filter_congr fun _ _ => decide_not.symm)

theorem merged_of_ok {incoming : Record} (found : table.get? source = some incoming)
    (ok : merge target source table = .ok () after) :
    Merged table target source incoming after where
  ontoItself same := by
    obtain ⟨-, -, ⟨-, unchanged⟩ | ⟨different, -⟩⟩ := merge_ok_iff.mp ok
    · exact unchanged
    · exact absurd same different
  moved different absent := by
    obtain ⟨other, otherFound, ⟨same, -⟩ | ⟨-, ⟨-, rfl⟩ | ⟨record, present, -⟩⟩⟩ :=
      merge_ok_iff.mp ok
    · exact absurd same different
    · obtain rfl : incoming = other := Option.some.inj (found.symm.trans otherFound)
      rw [entries_put_of_absent (by simp [absent]), entries_erase]
    · rw [absent] at present
      cases present
  joined different record present := by
    obtain ⟨other, otherFound, ⟨same, -⟩ | ⟨-, ⟨absent, -⟩ | ⟨stored, storedFound, -, -, rfl⟩⟩⟩ :=
      merge_ok_iff.mp ok
    · exact absurd same different
    · rw [absent] at present
      cases present
    · obtain rfl : incoming = other := Option.some.inj (found.symm.trans otherFound)
      refine ⟨?_, record.absorb incoming, by simp [different, present],
        record.joins_absorb incoming⟩
      rw [keys_erase]
      congr 1
      exact KeyMap.keys_modify table.records target _
  gone different := by
    obtain ⟨_, -, records⟩ := get?_merge ok different
    rw [records, if_neg different.symm, if_pos rfl]
  others key notTarget notSource := get?_merge_of_ne ok notTarget notSource
  detached := detached_merge ok

/-- A merge fails for a source without record or for two records that disagree, never changing the
table; otherwise it succeeds, and the target takes in what the source had. -/
theorem merge_exact (table : Table) (target source : Key) :
    (∀ error after, merge target source table = .error error after → after = table) ∧
      ((∃ error after, merge target source table = .error error after ∧
          error.isConflict = false) ↔ table.get? source = none) ∧
      ((∃ error after, merge target source table = .error error after ∧
          error.isConflict = true) ↔
        target ≠ source ∧ ∃ record incoming,
          table.get? target = some record ∧ table.get? source = some incoming ∧
            (record.kind ≠ incoming.kind ∨ record.visibility ≠ incoming.visibility)) ∧
      ∀ incoming, table.get? source = some incoming →
        (target ≠ source → ∀ record, table.get? target = some record →
          record.kind = incoming.kind ∧ record.visibility = incoming.visibility) →
        ∃ after, merge target source table = .ok () after ∧
          Merged table target source incoming after := by
  refine ⟨fun error after failed => (merge_error_iff.mp failed).1, ?_, ?_, ?_⟩
  · constructor
    · rintro ⟨error, after, failed, noConflict⟩
      obtain ⟨-, ⟨absent, -⟩ | ⟨-, _, _, -, -, ⟨-, rfl⟩ | ⟨-, -, rfl⟩⟩⟩ := merge_error_iff.mp failed
      · exact absent
      · cases noConflict
      · cases noConflict
    · intro absent
      exact ⟨_, table, merge_error_iff.mpr ⟨rfl, .inl ⟨absent, rfl⟩⟩, rfl⟩
  · constructor
    · rintro ⟨error, after, failed, conflict⟩
      obtain ⟨-, ⟨-, rfl⟩ | ⟨different, record, incoming, stored, found, reason⟩⟩ :=
        merge_error_iff.mp failed
      · cases conflict
      · exact ⟨different, record, incoming, stored, found, reason.imp And.left fun r => r.2.1⟩
    · rintro ⟨different, record, incoming, stored, found, disagree⟩
      by_cases kinds : record.kind = incoming.kind
      · have visibilities := disagree.resolve_left (not_not_intro kinds)
        exact ⟨_, table, merge_error_iff.mpr ⟨rfl, .inr ⟨different, record, incoming, stored, found,
          .inr ⟨kinds, visibilities, rfl⟩⟩⟩, rfl⟩
      · exact ⟨_, table, merge_error_iff.mpr ⟨rfl, .inr ⟨different, record, incoming, stored, found,
          .inl ⟨kinds, rfl⟩⟩⟩, rfl⟩
  · intro incoming found agree
    obtain ⟨after, ok⟩ := exists_merge found agree
    exact ⟨after, ok, merged_of_ok found ok⟩

/-- Two declarations of one function, with a caller between them; the earlier one repeats itself. -/
def twoCopies : Table :=
  ofRecords
    [("copy@b.c",
      { name := "copy", kind := some .function, origins := ["b.c", "a.c", "b.c"]
        calls := ["alloc", "free", "alloc"] }),
     ("main", { name := "main", kind := some .function, calls := ["copy@b.c"] }),
     ("copy@a.c",
      { name := "copy", kind := some .function, origins := ["a.c"], calls := ["free"] })]

/-- The later declaration takes in the earlier one and stays behind the caller. -/
theorem merge_exact_twoCopies :
    ∃ after joined, merge "copy@a.c" "copy@b.c" twoCopies = .ok () after ∧
      after.keys = ["main", "copy@a.c"] ∧ after.get? "copy@a.c" = some joined ∧
        joined.origins = ["a.c", "b.c"] ∧ joined.calls = ["free", "alloc"] := by
  obtain ⟨after, ok, merged⟩ :=
    (merge_exact twoCopies "copy@a.c" "copy@b.c").2.2.2 _ rfl fun _ _ stored => by
      cases stored
      exact ⟨rfl, rfl⟩
  obtain ⟨keys, joined, found, joins⟩ := merged.joined (by decide) _ rfl
  exact ⟨after, joined, ok, keys, found, joins.items .origins, joins.items (.edges .calls)⟩

end Table

end CallGraph
