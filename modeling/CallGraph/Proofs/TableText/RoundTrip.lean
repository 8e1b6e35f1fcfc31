import CallGraph.Proofs.Sorting
import CallGraph.Proofs.TableText.Blocks

/-!
# Writing a table and reading it

The text of a table is read back as the same table iff the table is representable.  Line by line,
the text of a representable table puts every field of every record into a block of its own; and
whatever the text, the blocks that its lines lead to hold only what may be written, so that every
table that is read is representable.
-/

namespace CallGraph

open Text

namespace TableText.State

variable {state : State}

/-! ## Reading what is written -/

theorem change_change (key : Key) (first second : Block → Block) :
    (state.change key first).change key second =
      state.change key fun block => second (first block) := by
  simp [change, KeyMap.modify_modify]

theorem change_self (key : Key) : state.change key (fun block => block) = state := by
  simp [change, KeyMap.modify_self]

theorem feedLines_append (number : Nat) (front back : List String) :
    state.feedLines number (front ++ back) =
      (state.feedLines number front).feedLines (number + front.length) back := by
  induction front generalizing state number with
  | nil => rfl
  | cons line front induction =>
      rw [List.cons_append, feedLines, induction, feedLines, List.length_cons]
      congr 1
      omega

/-- The line of a key that has no block yet opens one. -/
theorem feed_key {key : Key} (number : Nat) (representable : key.Representable)
    (fresh : state.blocks.get? key = none) :
    state.feed number (key ++ ":") =
      { state with
        blocks := state.blocks.insert key { line := number }, current := some key } := by
  obtain ⟨counts, read⟩ := keyLine?_written representable
  have absent : state.blocks.contains key = false := by
    rw [Bool.eq_false_iff, ne_eq, KeyMap.contains_iff, KeyMap.mem_keys_iff]
    simp [fresh]
  simp only [feed, counts, read, openBlock, absent, Bool.false_eq_true, if_false]

/-- What is written of a field is what the block of the record takes. -/
theorem takeValue_written {record : Record} {field : BlockField} {text : String} (number : Nat)
    (key : Key) (representable : record.Representable)
    (written : record.fieldText? field = some text) :
    state.takeValue number key field text = state.change key (record.put · field) := by
  cases field with
  | scalar field =>
      have given : record.scalar? field = some text := written
      obtain ⟨trimmed, -, nonempty⟩ := representable.scalar given
      have notDefault : ¬ (field = .visibility ∧ text.isEmpty = true) := by
        rintro ⟨isVisibility, empty⟩
        exact nonempty isVisibility (String.isEmpty_iff.mp empty)
      simp only [takeValue, trimmed, if_neg notDefault, Record.put, given]
  | items field =>
      obtain ⟨items, listed, rfl⟩ := Option.map_eq_some_iff.mp written
      simp [takeValue, items?_written (representable.list listed), Record.put, listed]

theorem feed_field {record : Record} {key : Key} {block : Block} {field : BlockField}
    {text : String} (number : Nat) (representable : record.Representable)
    (current : state.current = some key) (found : state.blocks.get? key = some block)
    (fresh : block.has field = false) (written : record.fieldText? field = some text) :
    state.feed number ("  " ++ field.label ++ ": " ++ text) =
      state.change key (record.put · field) := by
  obtain ⟨trimmed, oneLine⟩ := representable.fieldText written
  obtain ⟨letters, dropped, counts, noKey, read⟩ := fieldLine?_written (isLabel_label field)
    (trim_eq_self_iff.mp trimmed) oneLine.newline_not_mem
  have shape : ("  " ++ field.label ++ ": " ++ text).toList =
      ' ' :: ' ' :: field.label.toList ++ ':' :: ' ' :: text.toList := by
    simp
  have unread : (state.blocks.get? key).any (fun block => block.has field) = false := by
    rw [found]
    exact fresh
  rw [feed, shape, dropped, counts, noKey, read]
  simp [takeField, current, BlockField.ofLabel?_label, unread,
    takeValue_written number key representable written]

/-- The lines of distinct fields put these fields into the current block. -/
theorem feedLines_fields {record : Record} {key : Key} {block : Block} {fields : List BlockField}
    (number : Nat) (representable : record.Representable) (distinct : fields.Nodup)
    (current : state.current = some key) (found : state.blocks.get? key = some block)
    (fresh : ∀ field ∈ fields, block.has field = false) :
    state.feedLines number (fields.filterMap record.fieldLine?) =
      state.change key (fields.foldl record.put ·) := by
  -- the block grows along the induction; what it has of later fields is still nothing
  induction fields generalizing state number block with
  | nil => exact (change_self key).symm
  | cons field fields induction =>
      obtain ⟨elsewhere, distinct⟩ := List.nodup_cons.mp distinct
      rw [List.filterMap_cons, Record.fieldLine?_eq]
      cases written : record.fieldText? field with
      | none =>
          rw [Option.map_none, induction number distinct current found
            fun other member => fresh other (List.mem_cons_of_mem _ member)]
          simp [record.put_of_unwritten written]
      | some text =>
          rw [Option.map_some, feedLines, feed_field number representable current found
            (fresh field List.mem_cons_self) written]
          have currentStill : (state.change key (record.put · field)).current = some key := current
          have changed : (state.change key (record.put · field)).blocks.get? key =
              some (record.put block field) := by
            simp [change, found]
          rw [induction (number + 1) distinct currentStill changed ?_, change_change]
          · rfl
          · intro other member
            have different : other ≠ field := by
              rintro rfl
              exact elsewhere member
            rw [Record.has_put_of_ne different]
            exact fresh other (List.mem_cons_of_mem _ member)

/-- Nothing is wrong so far, and the blocks give exactly the records of a look-up. -/
def Spells (state : State) (records : Key → Option Record) : Prop :=
  state.findings = [] ∧
    ∀ key, (state.blocks.get? key).map Block.record? = (records key).map some

/-- The lines of a record under a new key add this record. -/
theorem Spells.feedBlock {records : Key → Option Record} {key : Key} {record : Record}
    (spells : state.Spells records) (number : Nat) (fresh : records key = none)
    (keyRepresentable : key.Representable) (representable : record.Representable) :
    (state.feedLines number (Record.blockLines key record)).Spells
      fun other => if other = key then some record else records other := by
  have absent : state.blocks.get? key = none := by
    have unknown := spells.2 key
    rw [fresh] at unknown
    exact Option.map_eq_none_iff.mp unknown
  have opened : (state.blocks.insert key { line := number }).get? key =
      some { line := number } := by
    simp
  rw [Record.blockLines, feedLines, feed_key number keyRepresentable absent,
    feedLines_fields (number + 1) representable (by decide) rfl opened fun field _ => by
      cases field <;> rfl]
  refine ⟨spells.1, fun other => ?_⟩
  by_cases same : other = key
  · subst same
    simp [change, Record.record?_foldl_put number representable.kind]
  · simpa [change, same] using spells.2 other

theorem Spells.feedEntries {records : Key → Option Record} {entries : List (Key × Record)}
    (spells : state.Spells records) (number : Nat) (distinct : (entries.map Prod.fst).Nodup)
    (fresh : ∀ entry ∈ entries, records entry.1 = none)
    (representable : ∀ entry ∈ entries, Key.Representable entry.1 ∧ entry.2.Representable) :
    (state.feedLines number (entries.flatMap fun entry => Record.blockLines entry.1 entry.2)).Spells
      fun key => (entries.lookup key).or (records key) := by
  induction entries generalizing state number records with
  | nil => exact spells
  | cons entry entries induction =>
      obtain ⟨key, record⟩ := entry
      rw [List.map_cons, List.nodup_cons] at distinct
      have first := representable _ List.mem_cons_self
      have different : ∀ entry ∈ entries, entry.1 ≠ key := by
        rintro entry member rfl
        exact distinct.1 (List.mem_map.mpr ⟨entry, member, rfl⟩)
      have step := spells.feedBlock number (fresh _ List.mem_cons_self) first.1 first.2
      have run := induction step (number + (record.blockLines key).length) distinct.2
        (fun entry member => by
          simp [different entry member, fresh entry (List.mem_cons_of_mem _ member)])
        fun entry member => representable entry (List.mem_cons_of_mem _ member)
      rw [List.flatMap_cons, feedLines_append]
      -- both look-ups agree, since no later entry has this key
      convert run using 2 with other
      rw [List.lookup_cons]
      by_cases same : other = key
      · subst same
        have elsewhere : entries.lookup other = none := by
          rw [List.lookup_eq_none_iff]
          exact fun entry member => by simpa using (different entry member).symm
        simp [elsewhere]
      · simp [same, beq_false_of_ne same]

/-! ## The records of the blocks -/

/-- Taking the record of a block notes a problem iff the block gives no record. -/
theorem finishBlock_spec (taken : State × List (Key × Record)) (key : Key) (block : Block) :
    (finishBlock taken (key, block)).2 =
        taken.2 ++ (block.record?.map fun record => (key, record)).toList ∧
      ((finishBlock taken (key, block)).1.findings = [] ↔
        taken.1.findings = [] ∧ block.record?.isSome = true) := by
  unfold finishBlock Block.record?
  by_cases complete : block.missing.isEmpty = true
  · cases read : block.toRecord <;> simp [complete, read, note]
  · simp [complete, note]

theorem foldl_finishBlock_spec (entries : List (Key × Block))
    (taken : State × List (Key × Record)) :
    (entries.foldl finishBlock taken).2 =
        taken.2 ++ entries.filterMap (fun entry =>
          entry.2.record?.map fun record => (entry.1, record)) ∧
      ((entries.foldl finishBlock taken).1.findings = [] ↔
        taken.1.findings = [] ∧ ∀ entry ∈ entries, entry.2.record?.isSome = true) := by
  induction entries generalizing taken with
  | nil => simp
  | cons entry entries induction =>
      obtain ⟨records, findings⟩ := finishBlock_spec taken entry.1 entry.2
      obtain ⟨laterRecords, laterFindings⟩ := induction (finishBlock taken entry)
      rw [List.foldl_cons, laterRecords, laterFindings, records, findings]
      constructor
      · cases given : entry.2.record? <;> simp [given]
      · simp [and_assoc]

theorem findings_finish_iff :
    state.finish.1.findings = [] ↔
      state.findings = [] ∧ ∀ entry ∈ state.blocks.entries, entry.2.record?.isSome = true :=
  (foldl_finishBlock_spec state.blocks.entries (state, [])).2

theorem map_fst_filterMap_sublist {α β : Type} (entries : List (Key × α)) (read : α → Option β) :
    ((entries.filterMap fun entry => (read entry.2).map fun value => (entry.1, value)).map
      Prod.fst).Sublist (entries.map Prod.fst) := by
  induction entries with
  | nil => simp
  | cons entry entries induction =>
      rw [List.filterMap_cons]
      cases read entry.2 with
      | none => exact induction.cons _
      | some value => exact induction.cons_cons _

theorem records_finish :
    state.finish.2 = state.blocks.entries.filterMap fun entry =>
      entry.2.record?.map fun record => (entry.1, record) :=
  (foldl_finishBlock_spec state.blocks.entries (state, [])).1

theorem distinct_finish : (state.finish.2.map Prod.fst).Nodup := by
  rw [records_finish]
  exact state.blocks.distinct.sublist (map_fst_filterMap_sublist _ _)

/-- Each key has the record of its block. -/
theorem get?_ofRecords_finish (key : Key) :
    (Table.ofRecords state.finish.2).get? key = (state.blocks.get? key).bind Block.record? := by
  ext record
  rw [Table.get?, Table.ofRecords, KeyMap.get?_eq_some_iff, KeyMap.entries_ofList distinct_finish,
    records_finish, Option.bind_eq_some_iff]
  simp only [KeyMap.get?_eq_some_iff, List.mem_filterMap, Option.map_eq_some_iff, Prod.mk.injEq,
    Prod.exists]
  constructor
  · rintro ⟨_, block, member, _, read, rfl, rfl⟩
    exact ⟨block, member, read⟩
  · rintro ⟨block, member, read⟩
    exact ⟨key, block, member, record, read, rfl, rfl⟩

/-! ## Reading any text -/

/-- All keys and blocks hold only what may be written. -/
def Representable (state : State) : Prop :=
  ∀ (key : Key) (block : Block), state.blocks.get? key = some block →
    key.Representable ∧ block.Representable

namespace Representable

theorem change (representable : state.Representable) (key : Key) {change : Block → Block}
    (kept : ∀ block : Block, block.Representable → (change block).Representable) :
    (state.change key change).Representable := by
  intro other block found
  rw [State.change, KeyMap.get?_modify] at found
  split at found
  · obtain ⟨before, present, rfl⟩ := Option.map_eq_some_iff.mp found
    obtain ⟨keyRepresentable, beforeRepresentable⟩ := representable other before present
    exact ⟨keyRepresentable, kept before beforeRepresentable⟩
  · exact representable other block found

theorem openBlock (representable : state.Representable) (number : Nat) {key : Key}
    (keyRepresentable : key.Representable) : (state.openBlock number key).Representable := by
  unfold State.openBlock
  split
  · exact representable
  · intro other block found
    simp only [KeyMap.get?_insert] at found
    split at found
    · next same =>
        subst same
        cases found
        exact ⟨keyRepresentable, .fresh number⟩
    · exact representable other block found

theorem takeValue (representable : state.Representable) (number : Nat) (key : Key)
    (field : BlockField) {value : String} (oneLine : OneLine value) :
    (state.takeValue number key field value).Representable := by
  cases field with
  | items field =>
      unfold State.takeValue
      cases read : items? value with
      | none => exact representable
      | some items =>
          exact representable.change key fun block blockRepresentable =>
            blockRepresentable.putItems field fun item listed =>
              listItem_of_items? read oneLine listed
  | scalar field =>
      simp only [State.takeValue]
      split
      -- an empty visibility was replaced by a word
      · exact representable.change key fun block blockRepresentable =>
          blockRepresentable.putScalar field (by decide) (by decide)
      · exact representable.change key fun block blockRepresentable =>
          blockRepresentable.putScalar field (trim_trim value) oneLine.trim

theorem takeField (representable : state.Representable) (number : Nat) (label : String)
    {value : String} (oneLine : OneLine value) :
    (state.takeField number label value).Representable := by
  unfold State.takeField
  split
  · exact representable
  · next key _ =>
      split
      · exact representable
      · next field _ =>
          split
          · exact representable
          · exact representable.takeValue number key field oneLine

/-- A line leads to nothing that may not be written. -/
theorem feed (representable : state.Representable) (number : Nat) {line : String}
    (oneLine : OneLine line) : (state.feed number line).Representable := by
  simp only [State.feed]
  split
  · exact representable
  · next counts =>
      split
      · next key read =>
          exact representable.openBlock number
            (representable_of_keyLine? oneLine (Bool.eq_false_iff.mpr counts) read)
      · split
        · next label value read =>
            refine representable.takeField number label fun letter member => ?_
            exact oneLine letter (mem_of_mem_dropTrailing (mem_of_fieldLine? read member))
        · exact representable

theorem feedLines (representable : state.Representable) (number : Nat) {lines : List String}
    (oneLine : ∀ line ∈ lines, OneLine line) : (state.feedLines number lines).Representable := by
  induction lines generalizing state number with
  | nil => exact representable
  | cons line lines induction =>
      exact induction (representable.feed number (oneLine line List.mem_cons_self)) (number + 1)
        fun other member => oneLine other (List.mem_cons_of_mem _ member)

end Representable

end TableText.State

namespace Table

open TableText

theorem nodup_sortedEntries (table : Table) : (table.sortedEntries.map Prod.fst).Nodup :=
  nodup_mergeSort_first table.records.distinct

/-- A table is read iff nothing is found wrong in the end; it has the records that were taken. -/
theorem readLines_eq_some_iff {lines : List String} {path : Option String} {table : Table} :
    (readLines lines path).table = some table ↔
      (({ path } : State).feedLines 1 lines).finish.1.findings = [] ∧
        table = ofRecords (({ path } : State).feedLines 1 lines).finish.2 := by
  simp only [readLines, List.isEmpty_iff, Option.ite_none_right_eq_some, Option.some.injEq,
    @eq_comm _ table]

/-- The table that is read is the one that the blocks of its lines spell. -/
theorem readLines_iff_spells {lines : List String} {path : Option String}
    {records : Key → Option Record} :
    (∃ table, (readLines lines path).table = some table ∧ ∀ key, table.get? key = records key) ↔
      (({ path } : State).feedLines 1 lines).Spells records := by
  simp only [readLines_eq_some_iff]
  generalize ({ path } : State).feedLines 1 lines = state
  constructor
  · rintro ⟨table, ⟨clear, rfl⟩, same⟩
    obtain ⟨clean, complete⟩ := State.findings_finish_iff.mp clear
    refine ⟨clean, fun key => ?_⟩
    rw [← same, State.get?_ofRecords_finish]
    cases found : state.blocks.get? key with
    | none => rfl
    | some block =>
        have member := (state.blocks.get?_eq_some_iff key block).mp found
        obtain ⟨record, read⟩ := Option.isSome_iff_exists.mp (complete _ member)
        simp [read]
  · rintro ⟨clean, spelled⟩
    have complete : ∀ entry ∈ state.blocks.entries, entry.2.record?.isSome = true := by
      intro entry member
      have given := spelled entry.1
      rw [(state.blocks.get?_eq_some_iff entry.1 entry.2).mpr member] at given
      obtain ⟨record, -, read⟩ := Option.map_eq_some_iff.mp given.symm
      rw [← read]
      rfl
    refine ⟨_, ⟨State.findings_finish_iff.mpr ⟨clean, complete⟩, rfl⟩, fun key => ?_⟩
    have given := spelled key
    rw [State.get?_ofRecords_finish]
    cases found : state.blocks.get? key <;> cases known : records key <;> simp_all

theorem lookup_sortedEntries (table : Table) (key : Key) :
    table.sortedEntries.lookup key = table.get? key :=
  lookup_mergeSort_first table.records.distinct key

theorem Representable.sortedEntries {table : Table} (representable : table.Representable) :
    ∀ entry ∈ table.sortedEntries, Key.Representable entry.1 ∧ entry.2.Representable := by
  intro entry member
  exact representable entry.1 entry.2
    ((table.mem_entries_iff _ _).mp (List.mem_mergeSort.mp member))

theorem Representable.oneLine {table : Table} (representable : table.Representable) :
    ∀ line ∈ table.formatLines, OneLine line := by
  intro line member
  obtain ⟨entry, listed, inBlock⟩ := List.mem_flatMap.mp member
  obtain ⟨keyRepresentable, recordRepresentable⟩ := representable.sortedEntries entry listed
  exact recordRepresentable.blockLines keyRepresentable line inBlock

/-- The text of a representable table is read back as the same table. -/
theorem read_format {table : Table} (representable : table.Representable) (path : Option String) :
    ∃ again, (read table.format path).table = some again ∧
      ∀ key, again.get? key = table.get? key := by
  have start : ({ path } : State).Spells fun _ => none := ⟨rfl, fun _ => rfl⟩
  have spells := start.feedEntries 1 table.nodup_sortedEntries (fun _ _ => rfl)
    representable.sortedEntries
  simp only [lookup_sortedEntries, Option.or_none] at spells
  rw [read, format, splitLines_join representable.oneLine]
  exact readLines_iff_spells.mpr spells

/-- Whatever the text, the table that is read is representable. -/
theorem representable_of_read {text : String} {path : Option String} {table : Table}
    (result : (read text path).table = some table) : table.Representable := by
  have spells := readLines_iff_spells.mp ⟨table, result, fun _ => rfl⟩
  have start : ({ path } : State).Representable := fun _ _ found => by cases found
  have representable := start.feedLines 1 fun line (member : line ∈ splitLines text) =>
    oneLine_of_mem_splitLines member
  intro key record found
  have given := spells.2 key
  rw [found] at given
  obtain ⟨block, present, read⟩ := Option.map_eq_some_iff.mp given
  obtain ⟨keyRepresentable, blockRepresentable⟩ := representable key block present
  exact ⟨keyRepresentable, blockRepresentable.record read⟩

/-- The text of a table is read back as a table with the same record for every key iff the table is
representable; and every table that is read, from whatever text, is representable and so is read
back from its own text. -/
theorem read_format_iff_representable (table : Table) (path : Option String) :
    ((∃ again, (read table.format path).table = some again ∧
        ∀ key, again.get? key = table.get? key) ↔ table.Representable) ∧
      ∀ text other, (read text path).table = some other →
        other.Representable ∧
          ∃ again, (read other.format path).table = some again ∧
            ∀ key, again.get? key = other.get? key := by
  refine ⟨⟨?_, fun representable => read_format representable path⟩, ?_⟩
  · -- the table has the records of one that was read
    rintro ⟨again, result, same⟩ key record found
    rw [← same] at found
    exact representable_of_read result key record found
  · intro text other result
    have representable := representable_of_read result
    exact ⟨representable, read_format representable path⟩

/-- A table whose texts come close to what separates them: an origin with blanks, a key with a colon
and a trailing blank, an item with a comma, a name that is empty and one that opens a list. -/
def spacedTable : Table :=
  ofRecords
    [("run@src/my dir/a.c",
      { name := "[run: #", kind := some .function, visibility := some .fileLocal
        origins := ["src/my dir/a.c", "b,c.c"], calls := ["]", "operator,"] }),
     ("operator: ", { kind := some .object })]

theorem read_format_spacedTable :
    spacedTable.Representable ∧
      ∃ again, (read spacedTable.format none).table = some again ∧
        ∀ key, again.get? key = spacedTable.get? key := by
  have representable : spacedTable.Representable := by
    intro key record found
    have member := (spacedTable.mem_entries_iff key record).mpr found
    rw [spacedTable, ofRecords, entries, KeyMap.entries_ofList (by decide)] at member
    rcases List.mem_cons.mp member with same | last
    · cases same
      refine ⟨⟨⟨_, _, rfl, by decide, by decide⟩, by decide⟩, rfl, by decide, by decide, ?_⟩
      rintro ((_ | _ | _ | _) | _) <;> decide
    · cases List.mem_singleton.mp last
      refine ⟨⟨⟨_, _, rfl, by decide, by decide⟩, by decide⟩, rfl, by decide, by decide, ?_⟩
      rintro ((_ | _ | _ | _) | _) <;> decide
  exact ⟨representable, (read_format_iff_representable spacedTable none).1.mpr representable⟩

end Table

end CallGraph
