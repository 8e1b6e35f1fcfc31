import CallGraph.Proofs.Reading.Moves

/-!
# Properties of all entries

A property of entries holds after reading if every change that a line makes to a record upholds it.
The origins of a record that is dropped are kept aside, so the property also says which origins a
table may remember.
-/

namespace CallGraph

/-- All entries have a property, and all origins that are kept aside another. -/
structure Table.Satisfies (table : Table) (holds : Key → Record → Prop)
    (remembers : Origin → Prop) : Prop where
  /-- Every record has the property. -/
  records : ∀ key record, table.get? key = some record → holds key record
  /-- So has every origin that waits for the return of its symbol. -/
  detached : ∀ key, ∀ origin ∈ (table.detached.get? key).getD [], remembers origin

namespace Table.Satisfies

variable {table after : Table} {holds : Key → Record → Prop} {remembers : Origin → Prop}

theorem empty : (∅ : Table).Satisfies holds remembers where
  records key record found := by cases found
  detached key origin kept := by cases kept

theorem modify (satisfies : table.Satisfies holds remembers) {key : Key}
    {change : Record → Record} (upheld : ∀ record, table.get? key = some record →
      holds key record → holds key (change record)) :
    (table.modify key change).Satisfies holds remembers where
  records own record found := by
    rw [get?_modify] at found
    split at found
    · next same =>
        obtain ⟨old, present, rfl⟩ := Option.map_eq_some_iff.mp found
        subst same
        exact upheld old present (satisfies.records own old present)
    · exact satisfies.records own record found
  detached := satisfies.detached

theorem erase (satisfies : table.Satisfies holds remembers) (key : Key) :
    (table.erase key).Satisfies holds remembers where
  records own record found := by
    rw [get?_erase] at found
    split at found
    · cases found
    · exact satisfies.records own record found
  detached := satisfies.detached

theorem dropSpurious (satisfies : table.Satisfies holds remembers)
    (known : ∀ key record, holds key record → ∀ origin ∈ record.origins, remembers origin)
    (key : Key) : (table.dropSpurious key).Satisfies holds remembers where
  records own record found := by
    rw [get?_dropSpurious] at found
    split at found
    · next same =>
        subst same
        exact satisfies.records own record (Option.filter_eq_some_iff.mp found).1
    · exact satisfies.records own record found
  detached own origin kept := by
    rw [detached_dropSpurious] at kept
    split at kept
    · rcases mem_union.mp kept with old | dropped
      · exact satisfies.detached key origin old
      · cases found : table.get? key with
        | none => simp [found] at dropped
        | some record =>
            rw [found] at dropped
            exact known key record (satisfies.records key record found) origin dropped
    · exact satisfies.detached own origin kept

end Table.Satisfies

namespace Dump

/-- What is asked of a property of entries for the lines of a unit to uphold it. -/
structure Upholds (said : Line → Prop) (origin : Origin) (holds : Key → Record → Prop)
    (remembers : Origin → Prop) : Prop where
  /-- A block is opened. -/
  opened : ∀ header, said (.header header) → ∀ stored : Option Record,
    (∀ record, stored = some record → holds (Key.inOrigin header.symbol origin) record) →
      holds (Key.inOrigin header.symbol origin)
        (openedRecord header.name origin (stored.getD {}))
  /-- A type is read. -/
  typed : ∀ key record kind, holds key record → holds key { record with kind := some kind }
  /-- A symbol that is not known to be public turns out to be private. -/
  hidden : ∀ key record, record.visibility ≠ some .exported → holds key record →
    holds key { record with visibility := some .fileLocal }
  /-- A symbol turns out to be public. -/
  published : ∀ key record external, holds key record →
    holds (Key.bare key) (publishedRecord external record)
  /-- Two records of a symbol are joined. -/
  absorbed : ∀ key record other, holds key record → holds key other →
    holds key (record.absorb other)
  /-- A list of edges is read. -/
  listed : ∀ key record field value, said (.field (.edges field) value) → holds key record →
    holds key (record.addEdges field (edgeTokens value))
  /-- The origins of a record may be remembered. -/
  known : ∀ key record, holds key record → ∀ origin ∈ record.origins, remembers origin

variable {said : Line → Prop} {origin : Origin} {holds : Key → Record → Prop}
  {remembers : Origin → Prop} {table after : Table} {current final : Key}

theorem Upholds.openBlock (upholds : Upholds said origin holds remembers) (header : Header)
    (sayable : said (.header header)) (satisfies : table.Satisfies holds remembers) :
    ((table.ensure (Key.inOrigin header.symbol origin)).modify
      (Key.inOrigin header.symbol origin)
      (openedRecord header.name origin)).Satisfies holds remembers := by
  have unchanged : (table.ensure (Key.inOrigin header.symbol origin)).detached =
      table.detached := by
    unfold Table.ensure
    split <;> rfl
  refine ⟨fun own record found => ?_, ?_⟩
  · rw [Table.get?_modify, Table.get?_ensure] at found
    split at found
    · next same =>
        subst same
        cases found
        exact upholds.opened header sayable _ (satisfies.records _)
    · exact satisfies.records own record found
  · intro own elsewhere kept
    change elsewhere ∈
      ((table.ensure (Key.inOrigin header.symbol origin)).detached.get? own).getD [] at kept
    rw [unchanged] at kept
    exact satisfies.detached own elsewhere kept

/-- The published record of the current block is brought to the bare symbol. -/
theorem Upholds.merge (upholds : Upholds said origin holds remembers) (external : Bool)
    (merged : Table.merge (Key.bare current) current
      (table.modify current (publishedRecord external)) = .ok () after)
    (satisfies : table.Satisfies holds remembers) : after.Satisfies holds remembers := by
  obtain ⟨incoming, found, cases_⟩ := Table.merge_ok_iff.mp merged
  rw [Table.get?_modify, if_pos rfl] at found
  obtain ⟨record, present, rfl⟩ := Option.map_eq_some_iff.mp found
  have published := upholds.published current record external
    (satisfies.records current record present)
  have others : ∀ own stored, own ≠ current →
      (table.modify current (publishedRecord external)).get? own = some stored →
        holds own stored := by
    intro own stored different ownFound
    rw [Table.get?_modify, if_neg different] at ownFound
    exact satisfies.records own stored ownFound
  rcases cases_ with ⟨same, rfl⟩ | ⟨different, ⟨-, rfl⟩ | ⟨stored, target, -, -, rfl⟩⟩
  · refine ⟨fun own other ownFound => ?_, satisfies.detached⟩
    by_cases isCurrent : own = current
    · subst isCurrent
      rw [Table.get?_modify, if_pos rfl, present] at ownFound
      cases ownFound
      rwa [same] at published
    · exact others own other isCurrent ownFound
  · refine ⟨fun own other ownFound => ?_, satisfies.detached⟩
    rw [Table.get?_put, Table.get?_erase] at ownFound
    split at ownFound
    · next isTarget =>
        cases ownFound
        rwa [isTarget]
    · split at ownFound
      · cases ownFound
      · next notCurrent => exact others own other notCurrent ownFound
  · refine ⟨fun own other ownFound => ?_, satisfies.detached⟩
    rw [Table.get?_erase, Table.get?_modify] at ownFound
    split at ownFound
    · cases ownFound
    · next notCurrent =>
        split at ownFound
        · next isTarget =>
            obtain ⟨old, oldFound, rfl⟩ := Option.map_eq_some_iff.mp ownFound
            subst isTarget
            exact upholds.absorbed _ old _ (others _ old different oldFound) published
        · exact others own other notCurrent ownFound

/-- One line upholds the property. -/
theorem Move.satisfies {item : Line} (move : Move origin table current item after final)
    (upholds : Upholds said origin holds remembers) (sayable : said item)
    (satisfies : table.Satisfies holds remembers) : after.Satisfies holds remembers := by
  cases move with
  | other => exact satisfies
  | header header known =>
      apply upholds.openBlock header sayable
      unfold closedTable
      split
      · exact satisfies.dropSpurious upholds.known current
      · exact satisfies
  | stray => exact satisfies
  | type value kind => exact satisfies.modify fun record _ => upholds.typed current record kind
  | exported value flags after present named isExported merged =>
      exact upholds.merge flags.external merged satisfies
  | artificial => exact satisfies.erase current
  | fileLocal value flags present named hidden genuine notExported =>
      refine satisfies.modify fun record found => upholds.hidden current record ?_
      simpa [found] using notExported
  | edges field value =>
      exact satisfies.modify fun record _ => upholds.listed current record field value sayable

theorem Moves.satisfies {items : List Line} (moves : Moves origin items table current after final)
    (upholds : Upholds said origin holds remembers) (sayable : ∀ item ∈ items, said item)
    (satisfies : table.Satisfies holds remembers) : after.Satisfies holds remembers := by
  induction moves with
  | nil => exact satisfies
  | cons move _ induction =>
      apply induction
      · exact fun item member => sayable item (List.mem_cons_of_mem _ member)
      · exact move.satisfies upholds (sayable _ List.mem_cons_self) satisfies

/-- A unit upholds the property. -/
theorem satisfies_of_readLinesInto {lines : List String} {reader : Reader}
    (read : readLinesInto table origin lines = .ok () reader)
    (upholds : Upholds said origin holds remembers)
    (sayable : ∀ line ∈ lines, ∀ item, readLine line = .ok item → said item)
    (satisfies : table.Satisfies holds remembers) :
    reader.table.Satisfies holds remembers := by
  obtain ⟨items, reads, middle, current, moves, ended⟩ :=
    readLinesInto_ok_iff.mp ⟨reader, read, rfl⟩
  have middleSatisfies : middle.Satisfies holds remembers := by
    refine moves.satisfies upholds (fun item member => ?_) satisfies
    have listed : (.ok item : Except LineError Line) ∈ lines.map readLine := by
      rw [reads]
      exact List.mem_map.mpr ⟨item, member, rfl⟩
    obtain ⟨line, lineMember, lineRead⟩ := List.mem_map.mp listed
    exact sayable line lineMember item lineRead
  rw [ended, finishedTable]
  split
  · exact middleSatisfies
  · exact middleSatisfies.dropSpurious upholds.known current

/-- So do several units, one after another. -/
theorem satisfies_of_readUnitsInto {units : List (Origin × List String)}
    (read : readUnitsInto table units = .ok after)
    (upholds : ∀ unit ∈ units, Upholds said unit.1 holds remembers)
    (sayable : ∀ unit ∈ units, ∀ line ∈ unit.2, ∀ item, readLine line = .ok item → said item)
    (satisfies : table.Satisfies holds remembers) : after.Satisfies holds remembers := by
  induction units generalizing table with
  | nil =>
      cases read
      exact satisfies
  | cons unit units induction =>
      obtain ⟨origin, lines⟩ := unit
      rw [readUnitsInto] at read
      split at read
      · next reader unitRead =>
          apply induction read
          · exact fun later member => upholds later (List.mem_cons_of_mem _ member)
          · exact fun later member => sayable later (List.mem_cons_of_mem _ member)
          · exact satisfies_of_readLinesInto unitRead (upholds (origin, lines) List.mem_cons_self)
              (sayable (origin, lines) List.mem_cons_self) satisfies
      · cases read

end Dump

end CallGraph
