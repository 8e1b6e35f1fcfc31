import CallGraph.Proofs.Reading.Survival

/-!
# Symbols that are opened again

A unit may open a symbol again after it has said that the symbol is public.  The new block stands
under the private key of the symbol until a visibility moves it.  If none does and the block has an
edge, the table holds the symbol twice: as a public one that the unit defines, and as a private one
of the same unit.  By `contains_inOrigin_iff_reopens` this happens in no other way.
-/

namespace CallGraph

/-- The table holds a public symbol that a unit defines. -/
def Table.Exports (table : Table) (symbol : String) (origin : Origin) : Prop :=
  ∃ record, table.get? symbol = some record ∧ record.visibility = some .exported ∧
    origin ∈ record.origins

namespace Dump

/-- A block of the symbol says that it is public and defined in the unit. -/
def Publishes (symbol : String) (items : List Line) : Prop :=
  ∃ value ∈ visibilities symbol false items,
    (Flags.scan value).exported = true ∧ (Flags.scan value).external = false

/-- The symbol is published, and a later block of it survives as a private one. -/
def Reopens (symbol : String) (items : List Line) : Prop :=
  ∃ before header after, items = before ++ .header header :: after ∧ header.symbol = symbol ∧
    Publishes symbol before ∧ Survives symbol {} true after

variable {origin elsewhere : Origin} {origins : List Origin} {table after : Table}
  {current final : Key} {symbol : String} {item : Line} {items : List Line}

/-- A unit reopens a symbol that it publishes if a block of the symbol survives. -/
theorem reopens_iff : Reopens symbol items ↔ Publishes symbol items ∧ Revives symbol items := by
  constructor
  · rintro ⟨before, header, after, rfl, same, ⟨value, listed, shown⟩, survives⟩
    refine ⟨⟨value, ?_, shown⟩, before, header, after, rfl, same, survives⟩
    rw [visibilities_append before after same]
    exact List.mem_append_left _ listed
  · rintro ⟨⟨value, listed, exported, defined⟩, before, header, after, rfl, same, survives⟩
    refine ⟨before, header, after, rfl, same, ⟨value, ?_, exported, defined⟩, survives⟩
    rw [visibilities_append before after same] at listed
    rcases List.mem_append.mp listed with earlier | later
    · exact earlier
    · -- A block that says so does not survive.
      cases (survives.hidden value later).symm.trans exported

/-! ## Origins of public symbols -/

/-- The table lists a unit among the origins of a key. -/
def Lists (table : Table) (key : Key) (origin : Origin) : Prop :=
  ∃ record, table.get? key = some record ∧ origin ∈ record.origins

theorem lists_of_modify {key own : Key} {change : Record → Record}
    (lists : Lists (table.modify key change) own elsewhere)
    (subset : ∀ record, (change record).origins ⊆ record.origins) :
    Lists table own elsewhere := by
  obtain ⟨record, found, listed⟩ := lists
  rw [Table.get?_modify] at found
  split at found
  · obtain ⟨old, oldFound, rfl⟩ := Option.map_eq_some_iff.mp found
    exact ⟨old, oldFound, subset old listed⟩
  · exact ⟨record, found, listed⟩

theorem origins_publishedRecord (external : Bool) (record : Record) :
    (publishedRecord external record).origins ⊆ record.origins := by
  cases external with
  | true => exact List.nil_subset _
  | false => exact List.Subset.refl _

/-- A unit becomes an origin of a public symbol when its own private record is published. -/
theorem lists_of_publish (kept : table.WellKept origins) {external : Bool}
    (merged : Table.merge (Key.bare current) current
      (table.modify current (publishedRecord external)) = .ok () after)
    (lists : Lists after symbol elsewhere) :
    Lists table symbol elsewhere ∨
      current = Key.inOrigin symbol elsewhere ∧ external = false := by
  by_cases same : Key.bare current = current
  · obtain ⟨incoming, -, ⟨-, rfl⟩ | ⟨apart, -⟩⟩ := Table.merge_ok_iff.mp merged
    · exact .inl (lists_of_modify lists (origins_publishedRecord external))
    · exact absurd same apart
  · obtain ⟨record, found, listed⟩ := lists
    rcases Table.mem_origins_merge merged same found listed with
      earlier | ⟨isTarget, incoming, incomingFound, brought⟩
    · exact .inl (lists_of_modify earlier (origins_publishedRecord external))
    · rw [Table.get?_modify, if_pos rfl] at incomingFound
      obtain ⟨own, ownFound, rfl⟩ := Option.map_eq_some_iff.mp incomingFound
      have marked : Key.isPrivate current = true := by
        rw [← Bool.not_eq_false]
        exact fun bare => same (Key.bare_eq_self bare)
      obtain ⟨owner, unit, -, -, ownerUnmarked, rfl, single, -⟩ :=
        (kept.records current own ownFound).hidden marked
      rw [Key.bare_inOrigin ownerUnmarked] at isTarget
      cases external with
      | true => cases brought
      | false =>
          change elsewhere ∈ own.origins at brought
          rw [single, List.mem_singleton] at brought
          exact .inr ⟨by rw [isTarget, brought], rfl⟩

/-- The only line that makes a unit an origin of a public symbol is a visibility of its block. -/
theorem Move.lists_cases (move : Move origin table current item after final)
    (kept : table.WellKept origins) (unmarked : Key.isPrivate symbol = false)
    (lists : Lists after symbol elsewhere) :
    Lists table symbol elsewhere ∨
      current = Key.inOrigin symbol elsewhere ∧ ∃ value, item = .field .visibility value ∧
        (Flags.scan value).exported = true ∧ (Flags.scan value).external = false := by
  cases move with
  | other => exact .inl lists
  | stray => exact .inl lists
  | header header known =>
      have different := Key.ne_inOrigin unmarked header.symbol origin
      obtain ⟨record, found, listed⟩ := lists
      rw [get?_opened_of_ne different] at found
      exact .inl ⟨record, get?_of_closedTable found, listed⟩
  | exported value flags after present named isExported merged =>
      rw [Flags.eq_scan_of_read named] at isExported merged
      refine (lists_of_publish kept merged lists).imp_right ?_
      rintro ⟨isCurrent, defined⟩
      exact ⟨isCurrent, value, rfl, isExported, defined⟩
  | artificial =>
      obtain ⟨record, found, listed⟩ := lists
      rw [Table.get?_erase] at found
      split at found
      · cases found
      · exact .inl ⟨record, found, listed⟩
  | type => exact .inl (lists_of_modify lists fun _ => List.Subset.refl _)
  | fileLocal => exact .inl (lists_of_modify lists fun _ => List.Subset.refl _)
  | edges field value =>
      refine .inl (lists_of_modify lists fun record => ?_)
      rw [Record.addEdges, Record.origins_withEdges]
      exact List.Subset.refl _

/-- The reader is at a private key of the unit only within the blocks of its symbol. -/
theorem Move.within_eq (move : Move origin table current item after final)
    (unmarked : Key.isPrivate symbol = false) (sayable : item.Sayable) {inside : Bool}
    (standing : current = Key.inOrigin symbol elsewhere → origin = elsewhere ∧ inside = true)
    (entered : final = Key.inOrigin symbol elsewhere) :
    origin = elsewhere ∧ within symbol inside item = true := by
  cases move with
  | header header known =>
      obtain ⟨same, unit⟩ := Key.inOrigin_injective sayable.unmarked unmarked entered
      exact ⟨unit, beq_iff_eq.mpr same⟩
  | exported =>
      exact absurd entered (Key.ne_inOrigin (Key.isPrivate_bare current) symbol elsewhere)
  | other => exact standing entered
  | stray => exact standing entered
  | type => exact standing entered
  | artificial => exact standing entered
  | fileLocal => exact standing entered
  | edges => exact standing entered

/-- A unit becomes an origin of a public symbol only by publishing it. -/
theorem Moves.lists_cases (moves : Moves origin items table current after final)
    (sayable : ∀ item ∈ items, item.Sayable) (listed : origin ∈ origins)
    (kept : table.WellKept origins) (unmarked : Key.isPrivate symbol = false) {inside : Bool}
    (standing : current = Key.inOrigin symbol elsewhere → origin = elsewhere ∧ inside = true)
    (lists : Lists after symbol elsewhere) :
    Lists table symbol elsewhere ∨
      origin = elsewhere ∧ ∃ value ∈ visibilities symbol inside items,
        (Flags.scan value).exported = true ∧ (Flags.scan value).external = false := by
  induction moves generalizing inside with
  | nil => exact .inl lists
  | cons move later induction =>
      obtain ⟨first, rest⟩ := List.forall_mem_cons.mp sayable
      rcases induction rest (move.wellKept first listed kept)
        (move.within_eq unmarked first standing) lists with
        earlier | ⟨same, value, member, shown⟩
      · rcases move.lists_cases kept unmarked earlier with old | ⟨isCurrent, value, rfl, shown⟩
        · exact .inl old
        · obtain ⟨same, rfl⟩ := standing isCurrent
          exact .inr ⟨same, value, by simp [visibilities, Line.visibility?], shown⟩
      · exact .inr ⟨same, value, List.mem_append_right _ member, shown⟩

theorem Moves.wellKept (moves : Moves origin items table current after final)
    (sayable : ∀ item ∈ items, item.Sayable) (listed : origin ∈ origins)
    (kept : table.WellKept origins) : after.WellKept origins := by
  induction moves with
  | nil => exact kept
  | cons move later induction =>
      obtain ⟨first, rest⟩ := List.forall_mem_cons.mp sayable
      exact induction rest (move.wellKept first listed kept)

/-- The lines of a unit leave the private keys of other units alone. -/
theorem Moves.get?_apart (moves : Moves origin items table current after final)
    (sayable : ∀ item ∈ items, item.Sayable) (unmarked : Key.isPrivate symbol = false)
    (different : origin ≠ elsewhere) (apart : Key.inOrigin symbol elsewhere ≠ current) :
    after.get? (Key.inOrigin symbol elsewhere) = table.get? (Key.inOrigin symbol elsewhere) ∧
      Key.inOrigin symbol elsewhere ≠ final := by
  induction moves with
  | nil => exact ⟨rfl, apart⟩
  | cons move later induction =>
      obtain ⟨first, rest⟩ := List.forall_mem_cons.mp sayable
      obtain ⟨same, between⟩ :=
        move.get?_apart (Key.isPrivate_inOrigin symbol elsewhere) apart (by
          rintro header rfl equal
          exact different (Key.inOrigin_injective unmarked first.unmarked equal).2.symm)
      rw [← same]
      exact induction rest between

/-! ## Whole units -/

variable {lines : List String} {reader : Reader}

theorem wellKept_of_readLinesInto (read : readLinesInto table origin lines = .ok () reader)
    (listed : origin ∈ origins) (kept : table.WellKept origins) :
    reader.table.WellKept origins := by
  obtain ⟨items, reads, middle, current, moves, ended⟩ :=
    readLinesInto_ok_iff.mp ⟨reader, read, rfl⟩
  rw [ended]
  exact wellKept_finishedTable (moves.wellKept (sayable_of_reads reads) listed kept) current

theorem get?_of_readLinesInto (read : readLinesInto table origin lines = .ok () reader)
    (unmarked : Key.isPrivate symbol = false) (different : origin ≠ elsewhere) :
    reader.table.get? (Key.inOrigin symbol elsewhere) =
      table.get? (Key.inOrigin symbol elsewhere) := by
  obtain ⟨items, reads, middle, current, moves, ended⟩ :=
    readLinesInto_ok_iff.mp ⟨reader, read, rfl⟩
  obtain ⟨same, apart⟩ := moves.get?_apart (sayable_of_reads reads) unmarked different
    (Key.inOrigin_ne_empty symbol elsewhere)
  rw [ended, get?_finishedTable, if_neg fun closes => apart closes.1, same]

theorem lists_of_readLinesInto (read : readLinesInto table origin lines = .ok () reader)
    (listed : origin ∈ origins) (kept : table.WellKept origins)
    (unmarked : Key.isPrivate symbol = false) (lists : Lists reader.table symbol elsewhere) :
    Lists table symbol elsewhere ∨ origin = elsewhere ∧ Publishes symbol (itemsOf lines) := by
  obtain ⟨items, reads, middle, current, moves, ended⟩ :=
    readLinesInto_ok_iff.mp ⟨reader, read, rfl⟩
  obtain ⟨record, found, member⟩ := lists
  rw [ended] at found
  rw [itemsOf_eq reads]
  refine moves.lists_cases (sayable_of_reads reads) listed kept unmarked (fun unopened => ?_)
    ⟨record, get?_of_finishedTable found, member⟩
  exact absurd unopened.symm (Key.inOrigin_ne_empty symbol elsewhere)

/-- A unit leaves a private record of a symbol that it did not find if one of its blocks opens one
that survives. -/
theorem contains_of_readLinesInto (read : readLinesInto table origin lines = .ok () reader)
    (unmarked : Key.isPrivate symbol = false)
    (absent : table.get? (Key.inOrigin symbol origin) = none) :
    reader.table.contains (Key.inOrigin symbol origin) = true ↔
      Revives symbol (itemsOf lines) := by
  obtain ⟨items, reads, middle, current, moves, ended⟩ :=
    readLinesInto_ok_iff.mp ⟨reader, read, rfl⟩
  have settled : Settled symbol origin table "" := by
    intro record found
    rw [absent] at found
    cases found
  rw [ended, moves.contains_iff_destined unmarked (sayable_of_reads reads) settled, Destined,
    absent, itemsOf_eq reads]
  simp

/-! ## Several units -/

variable {units : List (Origin × List String)}

theorem readUnitsInto_cons (read : readUnitsInto table ((origin, lines) :: units) = .ok after) :
    ∃ reader, readLinesInto table origin lines = .ok () reader ∧
      readUnitsInto reader.table units = .ok after := by
  rw [readUnitsInto] at read
  split at read
  · next reader unitRead => exact ⟨reader, unitRead, read⟩
  · cases read

theorem wellKept_of_readUnitsInto (read : readUnitsInto table units = .ok after)
    (listed : ∀ unit ∈ units, unit.1 ∈ origins) (kept : table.WellKept origins) :
    after.WellKept origins := by
  induction units generalizing table with
  | nil =>
      cases read
      exact kept
  | cons unit units induction =>
      obtain ⟨reader, unitRead, rest⟩ := readUnitsInto_cons read
      obtain ⟨first, later⟩ := List.forall_mem_cons.mp listed
      exact induction rest later (wellKept_of_readLinesInto unitRead first kept)

/-- Units leave the private keys of another unit alone, and do not make it an origin. -/
theorem untouched_of_readUnitsInto (read : readUnitsInto table units = .ok after)
    (listed : ∀ unit ∈ units, unit.1 ∈ origins) (kept : table.WellKept origins)
    (unmarked : Key.isPrivate symbol = false) (foreign : elsewhere ∉ units.map Prod.fst) :
    after.get? (Key.inOrigin symbol elsewhere) = table.get? (Key.inOrigin symbol elsewhere) ∧
      (Lists after symbol elsewhere → Lists table symbol elsewhere) := by
  induction units generalizing table with
  | nil =>
      cases read
      exact ⟨rfl, id⟩
  | cons unit units induction =>
      obtain ⟨reader, unitRead, rest⟩ := readUnitsInto_cons read
      obtain ⟨first, later⟩ := List.forall_mem_cons.mp listed
      rw [List.map_cons, List.mem_cons, not_or] at foreign
      obtain ⟨same, earlier⟩ :=
        induction rest later (wellKept_of_readLinesInto unitRead first kept) foreign.2
      refine ⟨same.trans (get?_of_readLinesInto unitRead unmarked (Ne.symm foreign.1)), ?_⟩
      intro lists
      rcases lists_of_readLinesInto unitRead first kept unmarked (earlier lists) with
        old | ⟨own, -⟩
      · exact old
      · exact absurd own.symm foreign.1

/-- A unit decides alone on the private record of a symbol, and on being an origin of it. -/
theorem decided_of_readUnitsInto (read : readUnitsInto table units = .ok after)
    (listed : ∀ unit ∈ units, unit.1 ∈ origins) (kept : table.WellKept origins)
    (distinct : (units.map Prod.fst).Nodup) (unmarked : Key.isPrivate symbol = false)
    (absent : table.get? (Key.inOrigin symbol origin) = none)
    (unlisted : ¬ Lists table symbol origin) (member : (origin, lines) ∈ units) :
    (after.contains (Key.inOrigin symbol origin) = true ↔ Revives symbol (itemsOf lines)) ∧
      (Lists after symbol origin → Publishes symbol (itemsOf lines)) := by
  induction units generalizing table with
  | nil => cases member
  | cons unit units induction =>
      obtain ⟨reader, unitRead, rest⟩ := readUnitsInto_cons read
      obtain ⟨first, later⟩ := List.forall_mem_cons.mp listed
      rw [List.map_cons, List.nodup_cons] at distinct
      have unitKept := wellKept_of_readLinesInto unitRead first kept
      rcases List.mem_cons.mp member with rfl | inRest
      · -- The unit itself: those after it change nothing.
        obtain ⟨same, earlier⟩ :=
          untouched_of_readUnitsInto rest later unitKept unmarked distinct.1
        rw [Table.contains_iff, same, ← Table.contains_iff]
        refine ⟨contains_of_readLinesInto unitRead unmarked absent, fun lists => ?_⟩
        rcases lists_of_readLinesInto unitRead first kept unmarked (earlier lists) with
          old | ⟨-, publishes⟩
        · exact absurd old unlisted
        · exact publishes
      · have different : unit.1 ≠ origin := by
          intro same
          exact distinct.1 (same ▸ List.mem_map.mpr ⟨_, inRest, rfl⟩)
        refine induction rest later unitKept distinct.2 ?_ ?_ inRest
        · rw [get?_of_readLinesInto unitRead unmarked different, absent]
        · intro lists
          rcases lists_of_readLinesInto unitRead first kept unmarked lists with old | ⟨own, -⟩
          · exact unlisted old
          · exact different own

/-- After units of distinct origins, a public symbol is also a private one of a unit that defines it
exactly if that unit opens it again after it published it, and the new block stays private. -/
theorem contains_inOrigin_iff_reopens (read : readUnitsInto ∅ units = .ok table)
    (distinct : (units.map Prod.fst).Nodup) (exports : table.Exports symbol origin) :
    table.contains (Key.inOrigin symbol origin) = true ↔
      ∃ lines, (origin, lines) ∈ units ∧ Reopens symbol (itemsOf lines) := by
  have listed : ∀ unit ∈ units, unit.1 ∈ units.map Prod.fst := fun unit member =>
    List.mem_map.mpr ⟨unit, member, rfl⟩
  have kept := wellKept_of_readUnitsInto read listed (wellKept_empty _)
  obtain ⟨record, found, shown, defined⟩ := exports
  have unmarked : Key.isPrivate symbol = false := by
    rw [← Bool.not_eq_true]
    intro marked
    obtain ⟨-, -, -, -, -, -, -, unseen⟩ := (kept.records symbol record found).hidden marked
    simp [shown] at unseen
  have lists : Lists table symbol origin := ⟨record, found, defined⟩
  have unlisted : ¬ Lists ∅ symbol origin := by
    rintro ⟨_, absent, -⟩
    cases absent
  have decided : ∀ lines, (origin, lines) ∈ units →
      (table.contains (Key.inOrigin symbol origin) = true ↔ Revives symbol (itemsOf lines)) ∧
        (Lists table symbol origin → Publishes symbol (itemsOf lines)) := fun lines member =>
    decided_of_readUnitsInto read listed (wellKept_empty _) distinct unmarked rfl unlisted member
  constructor
  · intro present
    have isUnit : origin ∈ units.map Prod.fst := by
      refine Classical.byContradiction fun foreign => ?_
      exact unlisted ((untouched_of_readUnitsInto read listed (wellKept_empty _) unmarked
        foreign).2 lists)
    obtain ⟨⟨_, lines⟩, member, rfl⟩ := List.mem_map.mp isUnit
    obtain ⟨revives, publishes⟩ := decided lines member
    exact ⟨lines, member, reopens_iff.mpr ⟨publishes lists, revives.mp present⟩⟩
  · rintro ⟨lines, member, reopens⟩
    exact (decided lines member).1.mpr (reopens_iff.mp reopens).2

/-- A unit that says that `f` is public and then opens it again. -/
def reopenedUnit : List String :=
  ["f/0 (f) @0x0", "  Type: function", "  Visibility: public", "  Calls: g/1", "f/0 (f) @0x0",
    "  Type: function", "  Calls: g/1"]

theorem contains_inOrigin_reopenedUnit :
    ∃ table, readUnitsInto ∅ [("a", reopenedUnit)] = .ok table ∧ table.Exports "f" "a" ∧
      table.contains "f@a" = true ∧ Reopens "f" (itemsOf reopenedUnit) := by
  have outcome : (readUnitsInto ∅ [("a", reopenedUnit)]).toOption.map
      (fun table => ((table.get? "f").map fun record => (record.visibility, record.origins),
        table.contains "f@a")) = some (some (some .exported, ["a"]), true) := by decide +kernel
  cases read : readUnitsInto ∅ [("a", reopenedUnit)] with
  | error error => simp [read, Except.toOption] at outcome
  | ok table =>
      simp only [read, Except.toOption, Option.map_some, Option.some.injEq, Prod.mk.injEq,
        Option.map_eq_some_iff] at outcome
      obtain ⟨⟨record, found, shown, defined⟩, present⟩ := outcome
      have exports : table.Exports "f" "a" := ⟨record, found, shown, by simp [defined]⟩
      obtain ⟨lines, member, reopens⟩ :=
        (contains_inOrigin_iff_reopens read (by decide) exports).mp present
      cases List.mem_singleton.mp member
      exact ⟨table, rfl, exports, present, reopens⟩

end Dump

end CallGraph
