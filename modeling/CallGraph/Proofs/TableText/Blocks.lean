import CallGraph.Proofs.Lookup
import CallGraph.Proofs.TableText.Pieces

/-!
# The blocks of a persisted table

A block is seen through the text and the list that it has for each field.  It gives a record iff
each field is what the record would write there, so the block into which all fields of a record were
put gives that record back, and the record of a block whose texts came from lines may be written.
-/

namespace CallGraph

open Text TableText

/-- A record that a block may hold. -/
structure Record.Representable (record : Record) : Prop where
  /-- It has a kind. -/
  kind : record.kind.isSome = true
  /-- Its name has no blanks around it. -/
  trimmed : trim record.name = record.name
  /-- Its name has no line boundaries. -/
  oneLine : OneLine record.name
  /-- Its lists have only items that may be written. -/
  items : ∀ field, ∀ item ∈ record.items field, ListItem item

/-- A table that a text may hold. -/
def Table.Representable (table : Table) : Prop :=
  ∀ key record, table.get? key = some record → key.Representable ∧ record.Representable

theorem BlockField.mem_all (field : BlockField) : field ∈ all := by
  rcases field with (_ | _ | _) | ((_ | _ | _ | _) | _) <;> decide

theorem BlockField.ofLabel?_label (field : BlockField) : ofLabel? field.label = some field := by
  rcases field with (_ | _ | _) | ((_ | _ | _ | _) | _) <;> decide

theorem find?_label_eq_some_iff {α : Type} {all : List α} {label : α → String}
    (own : ∀ value, (all.find? fun other => label other == label value) = some value)
    (word : String) (value : α) :
    (all.find? fun other => label other == word) = some value ↔ word = label value := by
  constructor
  · intro found
    have labelled := List.find?_some found
    exact (eq_of_beq labelled).symm
  · rintro rfl
    exact own value

theorem Kind.ofLabel?_eq_some_iff :
    ∀ word kind, ofLabel? word = some kind ↔ word = kind.label :=
  find?_label_eq_some_iff fun kind => by cases kind <;> decide

theorem Visibility.ofLabel?_eq_some_iff :
    ∀ word visibility, ofLabel? word = some visibility ↔ word = visibility.label :=
  find?_label_eq_some_iff fun visibility => by cases visibility <;> decide

theorem Checked.map_seq_eq_fine_iff {α β γ : Type} {change : α → β → γ} {left : Checked α}
    {right : Checked β} {value : γ} :
    change <$> left <*> right = .fine value ↔
      ∃ first second, left = .fine first ∧ right = .fine second ∧ change first second = value := by
  cases left <;> cases right <;> simp [Functor.map, Seq.seq, map, seq]

/-! ## What a block has -/

theorem lookup_append_singleton {α β : Type} [BEq α] [LawfulBEq α] [DecidableEq α]
    (entries : List (α × β)) (key other : α) (value : β) :
    (entries ++ [(key, value)]).lookup other =
      (entries.lookup other).or (if other = key then some value else none) := by
  rw [List.lookup_append, List.lookup_cons]
  by_cases same : other = key
  · simp [same]
  · simp [same, beq_false_of_ne same]

theorem any_eq_isSome_lookup {α β : Type} [BEq α] [LawfulBEq α] (entries : List (α × β))
    (key : α) : entries.any (fun entry => entry.1 == key) = (entries.lookup key).isSome := by
  induction entries with
  | nil => rfl
  | cons entry entries induction =>
      rw [List.any_cons, List.lookup_cons, induction, BEq.comm]
      cases key == entry.1 <;> rfl

namespace Block

variable {block : Block}

/-- The list of a field, if it was read. -/
def list? (block : Block) (field : ListField) : Option (List String) := block.lists.lookup field

theorem items_eq (field : ListField) : block.items field = (block.list? field).getD [] := rfl

theorem has_scalar (field : ScalarField) :
    block.has (.scalar field) = (block.scalar? field).isSome :=
  any_eq_isSome_lookup _ _

theorem has_items (field : ListField) : block.has (.items field) = (block.list? field).isSome :=
  any_eq_isSome_lookup _ _

theorem has_scalar_eq_false_iff {field : ScalarField} :
    block.has (.scalar field) = false ↔ block.scalar? field = none := by
  rw [has_scalar, Option.isSome_eq_false_iff, Option.isNone_iff_eq_none]

theorem has_items_eq_false_iff {field : ListField} :
    block.has (.items field) = false ↔ block.list? field = none := by
  rw [has_items, Option.isSome_eq_false_iff, Option.isNone_iff_eq_none]

theorem scalar?_putScalar (field other : ScalarField) (value : String) :
    (block.putScalar field value).scalar? other =
      (block.scalar? other).or (if other = field then some value else none) :=
  lookup_append_singleton _ _ _ _

theorem list?_putItems (field other : ListField) (values : List String) :
    (block.putItems field values).list? other =
      (block.list? other).or (if other = field then some values else none) :=
  lookup_append_singleton _ _ _ _

@[simp] theorem scalar?_putItems (field : ListField) (values : List String)
    (other : ScalarField) : (block.putItems field values).scalar? other = block.scalar? other := rfl

@[simp] theorem list?_putScalar (field : ScalarField) (value : String) (other : ListField) :
    (block.putScalar field value).list? other = block.list? other := rfl

theorem missing_eq_nil_iff :
    block.missing = [] ↔
      (block.scalar? .name).isSome = true ∧ (block.scalar? .type).isSome = true ∧
        (block.list? .origins).isSome = true := by
  rw [← has_scalar, ← has_scalar, ← has_items]
  simp [missing, BlockField.mandatory]

/-- A field with one of several words is read as the value whose word it holds. -/
theorem word_eq_fine_iff {α : Type} {ofWord? : String → Option α} {label : α → String}
    (labelled : ∀ word value, ofWord? word = some value ↔ word = label value)
    (field : ScalarField) (value : Option α) :
    block.word field ofWord? = .fine value ↔ block.scalar? field = value.map label := by
  unfold word
  cases block.scalar? field with
  | none => cases value <;> simp
  | some text =>
      cases found : ofWord? text with
      | none =>
          have unlabelled : ∀ other, text ≠ label other := by
            rintro other rfl
            rw [(labelled _ other).mpr rfl] at found
            cases found
          cases value <;> simp [Schema.wordOrNull, found, Checked.fault, Checked.within, unlabelled]
      | some read =>
          have same := (labelled _ _).mp found
          subst same
          cases value with
          | none => simp [Schema.wordOrNull, found, Checked.within]
          | some other =>
              have injective : label read = label other ↔ read = other := by
                rw [← labelled, found, Option.some.injEq]
              simp [Schema.wordOrNull, found, Checked.within, injective]

/-- The record of a block, if nothing is wrong with it. -/
def record? (block : Block) : Option Record :=
  if block.missing.isEmpty then
    match block.toRecord with
    | .fine record => some record
    | .faulty _ => none
  else none

theorem toRecord_eq_fine_iff {record : Record} :
    block.toRecord = .fine record ↔
      (block.scalar? .name).getD "" = record.name ∧
        block.scalar? .type = record.scalar? .type ∧
        block.scalar? .visibility = record.scalar? .visibility ∧
        ∀ field, block.items field = record.items field := by
  have kind := block.word_eq_fine_iff Kind.ofLabel?_eq_some_iff .type
  have visibility := block.word_eq_fine_iff Visibility.ofLabel?_eq_some_iff .visibility
  rw [toRecord, Checked.map_seq_eq_fine_iff]
  constructor
  · rintro ⟨_, _, kindRead, visibilityRead, rfl⟩
    refine ⟨rfl, (kind _).mp kindRead, (visibility _).mp visibilityRead, ?_⟩
    rintro ((_ | _ | _ | _) | _) <;> rfl
  · rintro ⟨name, kindRead, visibilityRead, items⟩
    refine ⟨record.kind, record.visibility, (kind _).mpr kindRead,
      (visibility _).mpr visibilityRead, ?_⟩
    simp only [name, items]
    rfl

/-- A block gives a record iff each of its fields is the one of the record, a kind and the origins
among them. -/
theorem record?_eq_some_iff {record : Record} :
    block.record? = some record ↔
      record.kind.isSome = true ∧ (block.list? .origins).isSome = true ∧
        (∀ field, block.scalar? field = record.scalar? field) ∧
        ∀ field, block.items field = record.items field := by
  have split : block.record? = some record ↔
      block.missing = [] ∧ block.toRecord = .fine record := by
    unfold record?
    cases block.toRecord <;> simp
  rw [split, missing_eq_nil_iff, toRecord_eq_fine_iff]
  constructor
  · rintro ⟨⟨named, typed, placed⟩, name, kind, visibility, items⟩
    refine ⟨?_, placed, ?_, items⟩
    · simpa [kind, Record.scalar?] using typed
    · rintro (_ | _ | _)
      · obtain ⟨text, found⟩ := Option.isSome_iff_exists.mp named
        simpa [found, Record.scalar?] using name
      · exact kind
      · exact visibility
  · rintro ⟨kind, placed, scalars, items⟩
    refine ⟨⟨?_, ?_, placed⟩, ?_, scalars .type, scalars .visibility, items⟩
    · rw [scalars]
      rfl
    · simpa [scalars, Record.scalar?] using kind
    · rw [scalars]
      rfl

end Block

/-! ## The block of a record -/

namespace Record

variable (record : Record)

/-- The list of a field, if it is written. -/
def list? (field : ListField) : Option (List String) :=
  if (record.items field).isEmpty && field ≠ .origins then none else some (record.items field)

/-- What is written after the label of a field. -/
def fieldText? : BlockField → Option String
  | .scalar field => record.scalar? field
  | .items field => (record.list? field).map fun items => "[" ++ ", ".intercalate items ++ "]"

/-- Put a field of a record into a block. -/
def put (block : Block) : BlockField → Block
  | .scalar field =>
      match record.scalar? field with
      | some value => block.putScalar field value
      | none => block
  | .items field =>
      match record.list? field with
      | some items => block.putItems field items
      | none => block

theorem fieldLine?_eq (field : BlockField) :
    record.fieldLine? field =
      (record.fieldText? field).map fun text => "  " ++ field.label ++ ": " ++ text := by
  cases field with
  | scalar field => rfl
  | items field =>
      simp only [fieldLine?, fieldText?, list?]
      split
      · rfl
      · have opening : ": [" = ": " ++ "[" := rfl
        simp only [opening, String.append_assoc, BlockField.label, Option.map_some]

theorem list?_getD (field : ListField) : (record.list? field).getD [] = record.items field := by
  unfold list?
  split
  · next left =>
      have empty : record.items field = [] := by
        simp only [Bool.and_eq_true, List.isEmpty_iff] at left
        exact left.1
      rw [empty]
      rfl
  · rfl

theorem list?_origins : record.list? .origins = some record.origins := by
  simp [list?, items]

theorem put_of_unwritten {field : BlockField} (unwritten : record.fieldText? field = none)
    (block : Block) : record.put block field = block := by
  cases field with
  | scalar field =>
      have absent : record.scalar? field = none := unwritten
      simp [put, absent]
  | items field =>
      have absent : record.list? field = none := Option.map_eq_none_iff.mp unwritten
      simp [put, absent]

variable {record} {block : Block}

theorem scalar?_put (field : BlockField) (other : ScalarField) :
    (record.put block field).scalar? other =
      (block.scalar? other).or (if .scalar other = field then record.scalar? other else none) := by
  cases field with
  | scalar field =>
      cases found : record.scalar? field with
      | none =>
          simp only [put, found, BlockField.scalar.injEq]
          split
          · next same => simp [same, found]
          · simp
      | some value =>
          simp only [put, found, Block.scalar?_putScalar, BlockField.scalar.injEq]
          split
          · next same => rw [same, found]
          · rfl
  | items field => cases found : record.list? field <;> simp [put, found]

theorem list?_put (field : BlockField) (other : ListField) :
    (record.put block field).list? other =
      (block.list? other).or (if .items other = field then record.list? other else none) := by
  cases field with
  | scalar field => cases found : record.scalar? field <;> simp [put, found]
  | items field =>
      cases found : record.list? field with
      | none =>
          simp only [put, found, BlockField.items.injEq]
          split
          · next same => simp [same, found]
          · simp
      | some values =>
          simp only [put, found, Block.list?_putItems, BlockField.items.injEq]
          split
          · next same => rw [same, found]
          · rfl

theorem has_put_of_ne {field other : BlockField} (different : other ≠ field) :
    (record.put block field).has other = block.has other := by
  cases other with
  | scalar other => simp [Block.has_scalar, scalar?_put, different]
  | items other => simp [Block.has_items, list?_put, different]

/-- What a run of fields leaves in a place of the block that only one of them goes to. -/
theorem foldl_put_eq {α : Type} (view : Block → Option α) {target : BlockField} {value : Option α}
    (step : ∀ block field, view (record.put block field) =
      (view block).or (if target = field then value else none)) (fields : List BlockField) :
    view (fields.foldl record.put block) =
      (view block).or (if target ∈ fields then value else none) := by
  induction fields generalizing block with
  | nil => simp
  | cons field fields induction =>
      rw [List.foldl_cons, induction, step, Option.or_assoc]
      by_cases same : target = field
      · subst same
        cases value <;> simp
      · simp [same]

/-- The block into which every field of a record was put gives the record back. -/
theorem record?_foldl_put (line : Nat) (kind : record.kind.isSome = true) :
    (BlockField.all.foldl record.put { line }).record? = some record := by
  have scalars : ∀ field, (BlockField.all.foldl record.put { line }).scalar? field =
      record.scalar? field := by
    intro field
    refine (foldl_put_eq (·.scalar? field) (fun _ put => scalar?_put put field) _).trans ?_
    rw [if_pos (BlockField.mem_all _)]
    rfl
  have lists : ∀ field, (BlockField.all.foldl record.put { line }).list? field =
      record.list? field := by
    intro field
    refine (foldl_put_eq (·.list? field) (fun _ put => list?_put put field) _).trans ?_
    rw [if_pos (BlockField.mem_all _)]
    rfl
  refine Block.record?_eq_some_iff.mpr ⟨kind, ?_, scalars, fun field => ?_⟩
  · rw [lists, list?_origins]
    rfl
  · rw [Block.items_eq, lists, list?_getD]

end Record

namespace Record.Representable

variable {record : Record}

theorem scalar (representable : record.Representable) {field : ScalarField} {text : String}
    (written : record.scalar? field = some text) :
    trim text = text ∧ OneLine text ∧ (field = .visibility → text ≠ "") := by
  cases field with
  | name =>
      cases written
      exact ⟨representable.trimmed, representable.oneLine, nofun⟩
  | type =>
      obtain ⟨kind, -, rfl⟩ := Option.map_eq_some_iff.mp written
      cases kind <;> exact ⟨by decide, by decide, nofun⟩
  | visibility =>
      obtain ⟨visibility, -, rfl⟩ := Option.map_eq_some_iff.mp written
      cases visibility <;> exact ⟨by decide, by decide, by decide⟩

theorem list (representable : record.Representable) {field : ListField} {items : List String}
    (written : record.list? field = some items) : ∀ item ∈ items, ListItem item := by
  have same : record.items field = items := by rw [← list?_getD, written, Option.getD_some]
  rw [← same]
  exact representable.items field

/-- What is written after a label is trimmed and stays in its line. -/
theorem fieldText (representable : record.Representable) {field : BlockField} {text : String}
    (written : record.fieldText? field = some text) : trim text = text ∧ OneLine text := by
  cases field with
  | scalar field =>
      obtain ⟨trimmed, oneLine, -⟩ := representable.scalar written
      exact ⟨trimmed, oneLine⟩
  | items field =>
      obtain ⟨items, listed, rfl⟩ := Option.map_eq_some_iff.mp written
      have oneLine : OneLine (", ".intercalate items) :=
        OneLine.intercalate (by decide) fun item member =>
          (representable.list listed item member).oneLine
      constructor
      · rw [trim_eq_self_iff, String.toList_append, String.toList_append]
        exact dropAround_append_append _ (by decide) (by decide) (by decide) (by decide)
      · exact (OneLine.append (by decide) oneLine).append (by decide)

theorem fieldLine (representable : record.Representable) {field : BlockField} {line : String}
    (written : record.fieldLine? field = some line) : OneLine line := by
  rw [fieldLine?_eq] at written
  obtain ⟨text, textWritten, rfl⟩ := Option.map_eq_some_iff.mp written
  have label : OneLine ("  " ++ field.label ++ ": ") := by
    rcases field with (_ | _ | _) | ((_ | _ | _ | _) | _) <;> decide
  exact label.append (representable.fieldText textWritten).2

theorem blockLines (representable : record.Representable) {key : Key}
    (keyRepresentable : key.Representable) : ∀ line ∈ record.blockLines key, OneLine line := by
  intro line member
  rcases List.mem_cons.mp member with rfl | inFields
  · exact keyRepresentable.oneLine.append (by decide)
  · obtain ⟨field, -, written⟩ := List.mem_filterMap.mp inFields
    exact representable.fieldLine written

end Record.Representable

/-! ## Blocks of lines -/

/-- A block whose texts may be written. -/
structure Block.Representable (block : Block) : Prop where
  /-- Its texts have no blanks around them and no line boundaries. -/
  scalars : ∀ field, ∀ value ∈ block.scalar? field, trim value = value ∧ OneLine value
  /-- Its lists have only items that may be written. -/
  items : ∀ field, ∀ item ∈ block.items field, ListItem item

namespace Block.Representable

variable {block : Block}

theorem fresh (line : Nat) : Block.Representable { line } where
  scalars _ value read := by cases read
  items _ item listed := by cases listed

theorem putScalar (representable : block.Representable) (field : ScalarField) {value : String}
    (trimmed : trim value = value) (oneLine : OneLine value) :
    (block.putScalar field value).Representable where
  scalars other text read := by
    rw [scalar?_putScalar, Option.mem_def, Option.or_eq_some_iff] at read
    rcases read with before | ⟨-, now⟩
    · exact representable.scalars other text before
    · split at now
      · cases now
        exact ⟨trimmed, oneLine⟩
      · cases now
  items := representable.items

theorem putItems (representable : block.Representable) (field : ListField) {values : List String}
    (wellFormed : ∀ item ∈ values, ListItem item) :
    (block.putItems field values).Representable where
  scalars := representable.scalars
  items other item listed := by
    rw [items_eq, list?_putItems] at listed
    cases before : block.list? other with
    | some earlier =>
        apply representable.items other item
        rw [items_eq, before]
        simpa [before] using listed
    | none =>
        by_cases same : other = field
        · subst same
          exact wellFormed item (by simpa [before] using listed)
        · simp [before, same] at listed

/-- The record of a block may be written. -/
theorem record {record : Record} (representable : block.Representable)
    (read : block.record? = some record) : record.Representable := by
  obtain ⟨kind, -, scalars, items⟩ := record?_eq_some_iff.mp read
  obtain ⟨trimmed, oneLine⟩ := representable.scalars .name record.name (scalars .name)
  refine ⟨kind, trimmed, oneLine, fun field item listed => ?_⟩
  rw [← items] at listed
  exact representable.items field item listed

end Block.Representable

end CallGraph
