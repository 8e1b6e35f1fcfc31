import CallGraph.Dump.Reader
import CallGraph.Proofs.Lookup

/-!
# What a line does to a reader

`Move` lists the ways in which a line that is accepted changes the table and the current key, with
the conditions under which each is open.  By `move_of_feed` these are all of them, and by
`feed_of_move` each is taken; what a reader reports is left aside.  Everything that follows about
reading is proved by cases on `Move`.
-/

namespace CallGraph

namespace Table

theorem dropSpurious_of_not_isSpurious {table : Table} {key : Key}
    (linked : table.isSpurious key = false) : table.dropSpurious key = table := by
  unfold isSpurious at linked
  unfold dropSpurious
  cases found : table.get? key with
  | none => rfl
  | some record =>
      rw [found] at linked
      have hasEdges : record.hasEdges = true := by simpa using linked
      simp [hasEdges]

end Table

namespace Dump

/-- The record of a block that has just been opened. -/
def openedRecord (name : String) (origin : Origin) (record : Record) : Record :=
  { record with name }.addOrigins [origin]

/-- The record of a symbol that has just turned out to be public. -/
def publishedRecord (external : Bool) (record : Record) : Record :=
  { record with
    origins := if external then [] else record.origins
    visibility := some .exported }

/-- The table when the next block begins: the record of the current block is dropped if it got no
edge, unless the new block goes on with the same symbol. -/
def closedTable (table : Table) (current : Key) (symbol : String) (key : Key) : Table :=
  if !current.isEmpty && current != symbol && current != key then table.dropSpurious current
  else table

/-- Closing a block takes away its own record at most. -/
theorem get?_closedTable (table : Table) (current : Key) (symbol : String) (key own : Key) :
    (closedTable table current symbol key).get? own =
      if own = current ∧ current ≠ "" ∧ current ≠ symbol ∧ current ≠ key then
        (table.get? own).filter Record.hasEdges
      else table.get? own := by
  unfold closedTable
  by_cases closes : current ≠ "" ∧ current ≠ symbol ∧ current ≠ key
  · rw [if_pos (by simpa [and_assoc] using closes), Table.get?_dropSpurious]
    by_cases isCurrent : own = current
    · rw [if_pos isCurrent, if_pos ⟨isCurrent, closes⟩, isCurrent]
    · rw [if_neg isCurrent, if_neg fun both => isCurrent both.1]
  · rw [if_neg (by simpa [and_assoc] using closes), if_neg fun both => closes both.2]

theorem get?_of_closedTable {table : Table} {current : Key} {symbol : String} {key own : Key}
    {record : Record} (found : (closedTable table current symbol key).get? own = some record) :
    table.get? own = some record := by
  rw [get?_closedTable] at found
  split at found
  · exact (Option.filter_eq_some_iff.mp found).1
  · exact found

/-- Opening a block leaves the other keys as they were. -/
theorem get?_opened_of_ne {table : Table} {key own : Key} (different : own ≠ key)
    (change : Record → Record) :
    ((table.ensure key).modify key change).get? own = table.get? own := by
  rw [Table.get?_modify, if_neg different, Table.get?_ensure, if_neg different]

/-- What a line that is accepted does to the table and the current key. -/
inductive Move (origin : Origin) (table : Table) (current : Key) : Line → Table → Key → Prop
  | other : Move origin table current .other table current
  | header (header : Header)
      (known : ∀ stored,
        (closedTable table current header.symbol (Key.inOrigin header.symbol origin)).get?
            (Key.inOrigin header.symbol origin) = some stored →
          stored.name = header.name ∧ origin ∈ stored.origins) :
      Move origin table current (.header header)
        (((closedTable table current header.symbol (Key.inOrigin header.symbol origin)).ensure
            (Key.inOrigin header.symbol origin)).modify (Key.inOrigin header.symbol origin)
          (openedRecord header.name origin))
        (Key.inOrigin header.symbol origin)
  | stray (label : Label) (value : String) (absent : table.contains current = false) :
      Move origin table current (.field label value) table current
  | type (value : String) (kind : Kind) (present : table.contains current = true)
      (named : Reader.kindOf? value = some kind)
      (agrees : ∀ stored, (table.get? current).bind Record.kind = some stored → stored = kind) :
      Move origin table current (.field .type value)
        (table.modify current fun record => { record with kind := some kind }) current
  | exported (value : String) (flags : Flags) (after : Table)
      (present : table.contains current = true) (named : Flags.read value = .ok flags)
      (isExported : flags.exported = true)
      (merged : Table.merge (Key.bare current) current
        (table.modify current (publishedRecord flags.external)) = .ok () after) :
      Move origin table current (.field .visibility value) after (Key.bare current)
  | artificial (value : String) (flags : Flags)
      (present : table.contains current = true) (named : Flags.read value = .ok flags)
      (hidden : flags.exported = false) (isArtificial : flags.artificial = true)
      (unseen : (table.get? current).bind Record.visibility = none) :
      Move origin table current (.field .visibility value) (table.erase current) current
  | fileLocal (value : String) (flags : Flags)
      (present : table.contains current = true) (named : Flags.read value = .ok flags)
      (hidden : flags.exported = false)
      (genuine : flags.artificial = true →
        (table.get? current).bind Record.visibility ≠ none)
      (notExported : (table.get? current).bind Record.visibility ≠ some .exported) :
      Move origin table current (.field .visibility value)
        (table.modify current fun record => { record with visibility := some .fileLocal }) current
  | edges (field : EdgeField) (value : String) (present : table.contains current = true) :
      Move origin table current (.field (.edges field) value)
        (table.modify current fun record => record.addEdges field (edgeTokens value)) current

namespace Reader

theorem run_bind {α β : Type} (action : Action α) (next : α → Action β) (reader : Reader) :
    (action >>= next) reader =
      match action reader with
      | .ok result after => next result after
      | .error error after => .error error after := by
  change EStateM.bind action next reader = _
  unfold EStateM.bind
  cases action reader <;> rfl

theorem run_pure {α : Type} (result : α) (reader : Reader) :
    (pure result : Action α) reader = .ok result reader := rfl

theorem run_get (reader : Reader) : (get : Action Reader) reader = .ok reader reader := rfl

theorem run_set (after reader : Reader) : (set after : Action Unit) reader = .ok () after := rfl

theorem run_modify (change : Reader → Reader) (reader : Reader) :
    (modify change : Action Unit) reader = .ok () (change reader) := rfl

theorem dropSpurious_run (reader : Reader) :
    ∃ journal, Reader.dropSpurious reader =
      .ok () { reader with table := reader.table.dropSpurious reader.current, journal } := by
  unfold Reader.dropSpurious
  by_cases spurious : reader.table.isSpurious reader.current = true
  · refine ⟨reader.journal ++ [.spuriousDropped reader.current], ?_⟩
    simp only [run_bind, run_get, spurious, if_true, run_set, report, run_modify]
  · refine ⟨reader.journal, ?_⟩
    have linked : reader.table.isSpurious reader.current = false := by simpa using spurious
    simp only [run_bind, run_get, spurious, if_false, run_pure,
      Table.dropSpurious_of_not_isSpurious linked, Bool.false_eq_true]

/-- The table in which the block of a header is opened. -/
abbrev tableFor (reader : Reader) (header : Header) : Table :=
  closedTable reader.table reader.current header.symbol
    (Key.inOrigin header.symbol reader.origin)

/-- Whether an earlier block of the same symbol and unit agrees with a header. -/
def Admits (reader : Reader) (header : Header) : Prop :=
  ∀ stored, (reader.tableFor header).get? (Key.inOrigin header.symbol reader.origin) =
      some stored →
    stored.name = header.name ∧ reader.origin ∈ stored.origins

/-- What opening a block does once the current one is closed. -/
def openClosed (header : Header) (origin : Origin) : Action Unit := do
  let key := Key.inOrigin header.symbol origin
  match (← get).table.get? key with
  | some stored =>
      if stored.name ≠ header.name ∨ origin ∉ stored.origins then
        throw (.redeclared key header.name stored.name stored.origins)
  | none => pure ()
  modify fun reader =>
    { reader with
      table := (reader.table.ensure key).modify key (openedRecord header.name reader.origin)
      current := key }

theorem openBlock_eq (header : Header) (reader : Reader) :
    ∃ journal, openBlock header reader =
      openClosed header reader.origin { reader with table := reader.tableFor header, journal } := by
  unfold openBlock tableFor closedTable
  simp only [run_bind, run_get]
  split
  · obtain ⟨journal, dropped⟩ := dropSpurious_run reader
    refine ⟨journal, ?_⟩
    rw [run_bind, dropped]
    rfl
  · exact ⟨reader.journal, rfl⟩

theorem openBlock_ok {header : Header} {reader : Reader} (admits : reader.Admits header) :
    ∃ journal, openBlock header reader =
      .ok () { reader with
        table := ((reader.tableFor header).ensure
          (Key.inOrigin header.symbol reader.origin)).modify
            (Key.inOrigin header.symbol reader.origin)
            (openedRecord header.name reader.origin)
        current := Key.inOrigin header.symbol reader.origin
        journal } := by
  obtain ⟨journal, opened⟩ := openBlock_eq header reader
  refine ⟨journal, ?_⟩
  rw [opened]
  unfold openClosed
  simp only [run_bind, run_get]
  cases found : (reader.tableFor header).get? (Key.inOrigin header.symbol reader.origin) with
  | none => rfl
  | some stored =>
      have agrees := admits stored found
      simp only [agrees.1, agrees.2, ne_eq, not_true_eq_false, or_self, if_false]
      rfl

theorem admits_of_openBlock {header : Header} {reader after : Reader}
    (opened : openBlock header reader = .ok () after) : reader.Admits header := by
  obtain ⟨journal, same⟩ := openBlock_eq header reader
  rw [same] at opened
  intro stored found
  unfold openClosed at opened
  simp only [run_bind, run_get, found] at opened
  split at opened
  · cases opened
  · next agrees =>
      simpa only [ne_eq, not_or, Classical.not_not] using agrees

/-- Publishing succeeds exactly when merging the published record does. -/
theorem publish_run (reader : Reader) (external : Bool) :
    ∃ journal, publish external reader =
      match Table.merge (Key.bare reader.current) reader.current
        (reader.table.modify reader.current (publishedRecord external)) with
      | .ok _ table =>
          .ok () { reader with table, current := Key.bare reader.current, journal }
      | .error error table => .error (.conflict error) { reader with table } := by
  have published : (reader.table.modify reader.current fun record =>
      { record with
        origins := if external then [] else record.origins
        visibility := some .exported }) =
      reader.table.modify reader.current (publishedRecord external) := rfl
  unfold publish
  simp only [run_bind, modifyCurrent, run_modify, run_get, onTable, published]
  cases Table.merge (Key.bare reader.current) reader.current
      (reader.table.modify reader.current (publishedRecord external)) with
  | error error table => exact ⟨[], rfl⟩
  | ok _ table =>
      dsimp only
      split
      · exact ⟨_, rfl⟩
      · exact ⟨_, rfl⟩

/-- Every move is taken. -/
theorem feed_of_move {line : String} {item : Line} (read : readLine line = .ok item)
    {reader : Reader} {table : Table} {current : Key}
    (move : Move reader.origin reader.table reader.current item table current) :
    ∃ journal, feed line reader = .ok () { reader with table, current, journal } := by
  unfold feed
  rw [read]
  cases move with
  | other => exact ⟨reader.journal, rfl⟩
  | header header known => exact openBlock_ok known
  | stray label value absent =>
      refine ⟨reader.journal, ?_⟩
      simp only [run_bind, run_get, absent, Bool.false_eq_true, if_false]
      rfl
  | type value kind present named agrees =>
      refine ⟨reader.journal, ?_⟩
      simp only [run_bind, run_get, present, if_true, readField, readType, named]
      cases stored : (reader.table.get? reader.current).bind Record.kind with
      | none => rfl
      | some known =>
          simp only [agrees known stored, ne_eq, not_true_eq_false, if_false]
          rfl
  | exported value flags after present named isExported merged =>
      simp only [run_bind, run_get, present, if_true, readField, readVisibility, named, isExported]
      obtain ⟨journal, published⟩ := publish_run reader flags.external
      rw [merged] at published
      exact ⟨journal, published⟩
  | artificial value flags present named hidden isArtificial unseen =>
      simp only [run_bind, run_get, present, if_true, readField, readVisibility, named, hidden,
        isArtificial, unseen, Bool.false_eq_true, if_false, Option.isNone_none, Bool.and_self]
      exact ⟨_, rfl⟩
  | fileLocal value flags present named hidden genuine notExported =>
      have kept : (flags.artificial &&
          ((reader.table.get? reader.current).bind Record.visibility).isNone) = false := by
        rw [Bool.and_eq_false_imp]
        intro isArtificial
        exact Option.isNone_eq_false_iff.mpr
          (Option.isSome_iff_ne_none.mpr (genuine isArtificial))
      simp only [run_bind, run_get, present, if_true, readField, readVisibility, named, hidden,
        kept, notExported, Bool.false_eq_true, if_false]
      exact ⟨_, rfl⟩
  | edges field value present =>
      refine ⟨reader.journal, ?_⟩
      simp only [run_bind, run_get, present, if_true, readField]
      rfl

theorem move_of_readType {value : String} {reader after : Reader}
    (present : reader.table.contains reader.current = true)
    (read : readType value reader = .ok () after) :
    after.origin = reader.origin ∧
      Move reader.origin reader.table reader.current (.field .type value) after.table
        after.current := by
  unfold readType at read
  simp only [run_bind, run_get] at read
  cases named : kindOf? value with
  | none =>
      rw [named] at read
      cases read
  | some kind =>
      simp only [named] at read
      cases stored : (reader.table.get? reader.current).bind Record.kind with
      | none =>
          rw [stored] at read
          cases read
          exact ⟨rfl, .type value kind present named (by simp [stored])⟩
      | some known =>
          simp only [stored] at read
          split at read
          · cases read
          · next agrees =>
              cases read
              have same : known = kind := Classical.not_not.mp agrees
              exact ⟨rfl, .type value kind present named (by simp [stored, same])⟩

theorem move_of_readVisibility {value : String} {reader after : Reader}
    (present : reader.table.contains reader.current = true)
    (read : readVisibility value reader = .ok () after) :
    after.origin = reader.origin ∧
      Move reader.origin reader.table reader.current (.field .visibility value) after.table
        after.current := by
  unfold readVisibility at read
  cases named : Flags.read value with
  | error error =>
      rw [named] at read
      cases read
  | ok flags =>
      simp only [named, run_bind, run_get] at read
      cases seen : flags.exported with
      | true =>
          obtain ⟨journal, published⟩ := publish_run reader flags.external
          simp only [seen, if_true] at read
          rw [read] at published
          split at published
          · next merged =>
              cases published
              exact ⟨rfl, .exported value flags _ present named seen merged⟩
          · cases published
      | false =>
          simp only [seen, Bool.false_eq_true, if_false] at read
          split at read
          · next dropped =>
              rw [Bool.and_eq_true, Option.isNone_iff_eq_none] at dropped
              cases read
              exact ⟨rfl, .artificial value flags present named seen dropped.1 dropped.2⟩
          · next kept =>
              split at read
              · cases read
              · next notExported =>
                  cases read
                  refine ⟨rfl, .fileLocal value flags present named seen ?_ notExported⟩
                  intro isArtificial unseen
                  exact kept (by simp [isArtificial, unseen])

/-- Every line that is accepted makes a move. -/
theorem move_of_feed {line : String} {reader after : Reader}
    (fed : feed line reader = .ok () after) :
    after.origin = reader.origin ∧
      ∃ item, readLine line = .ok item ∧
        Move reader.origin reader.table reader.current item after.table after.current := by
  unfold feed at fed
  cases read : readLine line with
  | error error =>
      rw [read] at fed
      cases fed
  | ok item =>
      rw [read] at fed
      cases item with
      | other =>
          cases fed
          exact ⟨rfl, .other, rfl, .other⟩
      | header header =>
          have admits := admits_of_openBlock fed
          obtain ⟨journal, opened⟩ := openBlock_ok admits
          rw [show openBlock header reader = .ok () after from fed] at opened
          cases opened
          exact ⟨rfl, .header header, rfl, .header header admits⟩
      | field label value =>
          simp only [run_bind, run_get] at fed
          split at fed
          · next present =>
              cases label with
              | type =>
                  obtain ⟨origin, move⟩ := move_of_readType present fed
                  exact ⟨origin, _, rfl, move⟩
              | visibility =>
                  obtain ⟨origin, move⟩ := move_of_readVisibility present fed
                  exact ⟨origin, _, rfl, move⟩
              | edges field =>
                  cases fed
                  exact ⟨rfl, _, rfl, .edges field value present⟩
          · next absent =>
              cases fed
              exact ⟨rfl, _, rfl, .stray label value (by simpa using absent)⟩

end Reader

/-! ## Several lines -/

/-- The moves of several lines, one after another. -/
inductive Moves (origin : Origin) : List Line → Table → Key → Table → Key → Prop
  | nil (table : Table) (current : Key) : Moves origin [] table current table current
  | cons {item : Line} {items : List Line} {table middle after : Table}
      {current between final : Key} (first : Move origin table current item middle between)
      (later : Moves origin items middle between after final) :
      Moves origin (item :: items) table current after final

theorem Moves.append {origin : Origin} {left right : List Line} {table middle after : Table}
    {current between final : Key} (first : Moves origin left table current middle between)
    (later : Moves origin right middle between after final) :
    Moves origin (left ++ right) table current after final := by
  induction first with
  | nil => exact later
  | cons move _ induction => exact .cons move (induction later)

/-- The table when the unit ends. -/
def finishedTable (table : Table) (current : Key) : Table :=
  if current.isEmpty then table else table.dropSpurious current

theorem get?_finishedTable (table : Table) (current own : Key) :
    (finishedTable table current).get? own =
      if own = current ∧ current ≠ "" then (table.get? own).filter Record.hasEdges
      else table.get? own := by
  unfold finishedTable
  by_cases opened : current = ""
  · rw [if_pos (by simp [opened]), if_neg fun both => both.2 opened]
  · rw [if_neg (by simpa using opened), Table.get?_dropSpurious]
    by_cases isCurrent : own = current
    · rw [if_pos isCurrent, if_pos ⟨isCurrent, opened⟩, isCurrent]
    · rw [if_neg isCurrent, if_neg fun both => isCurrent both.1]

theorem get?_of_finishedTable {table : Table} {current own : Key} {record : Record}
    (found : (finishedTable table current).get? own = some record) :
    table.get? own = some record := by
  rw [get?_finishedTable] at found
  split at found
  · exact (Option.filter_eq_some_iff.mp found).1
  · exact found

namespace Reader

theorem finish_run (reader : Reader) :
    ∃ journal, finish reader =
      .ok () { reader with table := finishedTable reader.table reader.current, journal } := by
  unfold finish finishedTable
  simp only [run_bind, run_get]
  cases reader.current.isEmpty with
  | true => exact ⟨reader.journal, rfl⟩
  | false => exact dropSpurious_run reader

theorem forM_cons_run (line : String) (lines : List String) (reader : Reader) :
    (line :: lines).forM feed reader = (feed line >>= fun _ => lines.forM feed) reader := rfl

theorem forM_of_moves {lines : List String} {items : List Line}
    (read : lines.map readLine = items.map .ok) {reader : Reader} {table : Table} {current : Key}
    (moves : Moves reader.origin items reader.table reader.current table current) :
    ∃ journal, lines.forM feed reader = .ok () { reader with table, current, journal } := by
  induction lines generalizing items reader with
  | nil =>
      cases items with
      | nil =>
          cases moves
          exact ⟨reader.journal, rfl⟩
      | cons item items => simp at read
  | cons line lines induction =>
      cases items with
      | nil => simp at read
      | cons item items =>
          rw [List.map_cons, List.map_cons, List.cons.injEq] at read
          cases moves with
          | @cons _ _ _ middle _ _ between _ first later =>
              obtain ⟨journal, fed⟩ := feed_of_move read.1 first
              obtain ⟨final, rest⟩ := @induction items read.2
                { reader with table := middle, current := between, journal } later
              refine ⟨final, ?_⟩
              rw [forM_cons_run, run_bind, fed]
              exact rest

theorem moves_of_forM {lines : List String} {reader after : Reader}
    (fed : lines.forM feed reader = .ok () after) :
    ∃ items, lines.map readLine = items.map .ok ∧ after.origin = reader.origin ∧
      Moves reader.origin items reader.table reader.current after.table after.current := by
  induction lines generalizing reader with
  | nil =>
      cases fed
      exact ⟨[], rfl, rfl, .nil _ _⟩
  | cons line lines induction =>
      rw [forM_cons_run, run_bind] at fed
      cases first : feed line reader with
      | error error stopped =>
          rw [first] at fed
          cases fed
      | ok _ middle =>
          rw [first] at fed
          obtain ⟨origin, item, read, move⟩ := move_of_feed first
          obtain ⟨items, reads, later, moves⟩ := induction fed
          rw [origin] at later moves
          exact ⟨item :: items, by rw [List.map_cons, read, reads, List.map_cons], later,
            .cons move moves⟩

end Reader

/-! ## Whole units -/

/-- Reading a unit succeeds when its lines make moves, and leaves the table they lead to. -/
theorem readLinesInto_ok_iff {table after : Table} {origin : Origin} {lines : List String} :
    (∃ reader, readLinesInto table origin lines = .ok () reader ∧ reader.table = after) ↔
      ∃ items, lines.map readLine = items.map .ok ∧
        ∃ middle current, Moves origin items table "" middle current ∧
          after = finishedTable middle current := by
  unfold readLinesInto Reader.readLines
  constructor
  · rintro ⟨reader, read, rfl⟩
    rw [Reader.run_bind] at read
    cases fed : lines.forM Reader.feed { table, origin } with
    | error error stopped =>
        rw [fed] at read
        cases read
    | ok _ middle =>
        rw [fed] at read
        obtain ⟨items, reads, -, moves⟩ := Reader.moves_of_forM fed
        obtain ⟨journal, finished⟩ := Reader.finish_run middle
        rw [show Reader.finish middle = .ok () reader from read] at finished
        cases finished
        exact ⟨items, reads, middle.table, middle.current, moves, rfl⟩
  · rintro ⟨items, reads, middle, current, moves, rfl⟩
    obtain ⟨journal, fed⟩ := @Reader.forM_of_moves lines items reads { table, origin } _ _ moves
    obtain ⟨final, finished⟩ := Reader.finish_run
      { table := middle, origin, current, journal }
    refine ⟨{ table := finishedTable middle current, origin, current, journal := final }, ?_, rfl⟩
    rw [Reader.run_bind, fed]
    exact finished

/-- Read the sections of several units, one after another, into one table. -/
def readUnitsInto (table : Table) : List (Origin × List String) → Except DumpError Table
  | [] => .ok table
  | (origin, lines) :: units =>
      match readLinesInto table origin lines with
      | .ok _ reader => readUnitsInto reader.table units
      | .error error _ => .error error

end Dump

end CallGraph
