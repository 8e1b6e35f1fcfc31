import CallGraph.Proofs.TableText.Pieces

/-!
# The grammar of a persisted table

A text holds a table if its lines, trailing blanks taken away and blank lines and comments left out,
are blocks one after the other: the line of a key, and then a line for each of some fields.  The
grammar says what a line may be without saying how it is read; each reader of a piece is shown to
take exactly the pieces that the grammar allows.
-/

namespace CallGraph

open Text

namespace TableText

/-! ## Lines -/

/-- Whether a line counts: some letter of it is not blank, and the first such letter does not begin
a comment. -/
def counts (line : String) : Bool :=
  (line.toList.find? fun letter => !isBlank letter).any (· != '#')

/-- The lines that count, without their trailing blanks. -/
def counted (lines : List String) : List String :=
  (lines.map trimRight).filter counts

/-- A way to cut a line into a label and a value: two spaces, a word, a colon, blanks, the rest. -/
structure Cuts (line label value : String) : Prop where
  /-- The label is not empty. -/
  nonempty : label ≠ ""
  /-- It has no blanks. -/
  visible : ∀ letter ∈ label.toList, isBlank letter = false
  /-- The pieces make up the line. -/
  pieces : ∃ gap, line = "  " ++ label ++ ":" ++ gap ++ value ∧
    ∀ letter ∈ gap.toList, isBlank letter = true

/-- The way in which a field line is cut: the label is as long as it can be, and then the gap. -/
structure IsFieldLine (line label value : String) : Prop where
  /-- The line may be cut there. -/
  cuts : Cuts line label value
  /-- No other way to cut it has a longer label. -/
  longest : ∀ other rest, Cuts line other rest → other.length ≤ label.length
  /-- The gap takes all the blanks. -/
  start : ∀ letter ∈ value.toList.head?, isBlank letter = false

/-- A value that spells a list: items between brackets, with blanks around them as may be, that a
comma and a space separate. -/
def SpellsItems (value : String) (items : List String) : Prop :=
  ∃ inner, value = "[" ++ inner ++ "]" ∧ trim inner = ", ".intercalate items ∧
    ∀ item ∈ items, item ≠ "" ∧ trim item = item ∧ contains item ", " = false

/-- A line of a block. -/
structure FieldLine where
  /-- The line. -/
  line : String
  /-- The field that it gives. -/
  field : BlockField
  /-- What stands after the label. -/
  value : String
  /-- The line is cut into the label of the field and the value. -/
  cut : IsFieldLine line field.label value
  /-- The value of a list spells one. -/
  listed : ∀ list, field = .items list → ∃ items, SpellsItems value items

/-- A block of lines. -/
structure TextBlock where
  /-- The key of the block. -/
  key : Key
  /-- It starts with a letter that is not blank. -/
  visible : ∃ first rest, key.toList = first :: rest ∧ isBlank first = false
  /-- The lines of the fields. -/
  fields : List FieldLine
  /-- No field has two lines. -/
  distinct : (fields.map FieldLine.field).Nodup

/-- The lines of a block: the one of its key, and those of its fields. -/
def TextBlock.lines (block : TextBlock) : List String :=
  (block.key ++ ":") :: block.fields.map FieldLine.line

/-- The fields of a block. -/
def TextBlock.given (block : TextBlock) : List BlockField := block.fields.map FieldLine.field

/-- Lines that are made of blocks with different keys. -/
structure LaidOut (lines : List String) (blocks : List TextBlock) : Prop where
  /-- The lines are those of the blocks. -/
  lines_eq : lines = blocks.flatMap TextBlock.lines
  /-- No two blocks have the same key. -/
  distinct : (blocks.map TextBlock.key).Nodup

end TableText

/-! ## Records -/

open TableText

/-- What the value of a field says of a record. -/
def Record.HasValue (record : Record) (value : String) : BlockField → Prop
  | .scalar .name => record.name = trim value
  | .scalar .type => ∃ kind, record.kind = some kind ∧ trim value = kind.label
  | .scalar .visibility => ∃ visibility, record.visibility = some visibility ∧
      (trim value = visibility.label ∨ trim value = "" ∧ visibility = .fileLocal)
  | .items list => SpellsItems value (record.items list)

/-- A block that gives a record. -/
structure TableText.TextBlock.Gives (block : TextBlock) (record : Record) : Prop where
  /-- The mandatory fields are there. -/
  complete : ∀ field ∈ BlockField.mandatory, field ∈ block.given
  /-- The record is what the values say. -/
  values : ∀ line ∈ block.fields, record.HasValue line.value line.field
  /-- A visibility that is not given is not set. -/
  unseen : .scalar .visibility ∉ block.given → record.visibility = none
  /-- A list that is not given is empty. -/
  unlisted : ∀ list, .items list ∉ block.given → record.items list = []

namespace TableText

/-! ## What is read of a line -/

theorem counts_eq (line : String) : counts line = !isSkipped line.toList := by
  unfold counts isSkipped
  induction line.toList with
  | nil => rfl
  | cons first rest induction =>
      cases blank : isBlank first with
      | true => simpa [blank] using induction
      | false => simp [blank, bne]

theorem splitAtLastColon?_eq_some_iff {word before after : List Char} :
    splitAtLastColon? word = some (before, after) ↔
      word = before ++ ':' :: after ∧ before ≠ [] ∧ ':' ∉ after := by
  constructor
  · intro split
    unfold splitAtLastColon? at split
    have whole := List.takeWhile_append_dropWhile (p := (· != ':')) (l := word.reverse)
    split at split
    · next last front shape =>
        split at split
        · cases split
        · next nonempty =>
            cases split
            have colon : last = ':' := by
              have stops := @head_dropWhile _ (· != ':') word.reverse last (by rw [shape]; rfl)
              simpa using stops
            rw [shape, colon] at whole
            have turned := congrArg List.reverse whole
            refine ⟨by simpa using turned.symm, by simpa using nonempty, ?_⟩
            rw [List.mem_reverse]
            intro member
            simpa using List.mem_takeWhile_imp member
    · cases split
  · rintro ⟨rfl, nonempty, noColon⟩
    have clear : ∀ letter ∈ after.reverse, (letter != ':') = true := by
      intro letter member
      rw [bne_iff_ne]
      rintro rfl
      exact noColon (List.mem_reverse.mp member)
    have turned : (before ++ ':' :: after).reverse = after.reverse ++ ':' :: before.reverse := by
      simp
    unfold splitAtLastColon?
    rw [turned, List.dropWhile_append_of_pos clear, List.takeWhile_append_of_pos clear]
    simp [nonempty]

theorem fieldLine?_eq_some_iff {letters : List Char} {label value : String} :
    fieldLine? letters = some (label, value) ↔
      ∃ body before after, letters = ' ' :: ' ' :: body ∧
        body.takeWhile (fun letter => !isBlank letter) = before ++ ':' :: after ∧ before ≠ [] ∧
          ':' ∉ after ∧ label = String.ofList before ∧
            value = String.ofList
              ((after ++ body.dropWhile fun letter => !isBlank letter).dropWhile isBlank) ∧
              '\n' ∉ value.toList := by
  constructor
  · intro read
    unfold fieldLine? at read
    split at read
    · next body =>
        obtain ⟨⟨before, after⟩, cut, rest⟩ := Option.bind_eq_some_iff.mp read
        obtain ⟨shape, nonempty, noColon⟩ := splitAtLastColon?_eq_some_iff.mp cut
        simp only at rest
        split at rest
        · cases rest
        · next clear =>
            cases rest
            exact
              ⟨body, before, after, rfl, shape, nonempty, noColon, rfl, rfl, by simpa using clear⟩
    · cases read
  · rintro ⟨body, before, after, rfl, shape, nonempty, noColon, rfl, rfl, clear⟩
    rw [String.toList_ofList] at clear
    simp [fieldLine?, splitAtLastColon?_eq_some_iff.mpr ⟨shape, nonempty, noColon⟩, clear]

/-- The letters of a line that may be cut: its first word goes beyond the colon of the cut. -/
theorem Cuts.shape {line label value : String} (cuts : Cuts line label value) :
    ∃ gap, line.toList = ' ' :: ' ' :: (label.toList ++ ':' :: (gap ++ value.toList)) ∧
      (∀ letter ∈ gap, isBlank letter = true) ∧
        ∀ tail, (label.toList ++ ':' :: tail).takeWhile (fun letter => !isBlank letter) =
            label.toList ++ ':' :: tail.takeWhile (fun letter => !isBlank letter) ∧
          (label.toList ++ ':' :: tail).dropWhile (fun letter => !isBlank letter) =
            tail.dropWhile fun letter => !isBlank letter := by
  obtain ⟨gap, rfl, blank⟩ := cuts.pieces
  refine ⟨gap.toList, by simp, blank, fun tail => ?_⟩
  have visible : ∀ letter ∈ label.toList, (!isBlank letter) = true := fun letter member => by
    simp [cuts.visible letter member]
  rw [List.takeWhile_append_of_pos visible, List.dropWhile_append_of_pos visible]
  exact ⟨congrArg _ (List.takeWhile_cons_of_pos rfl), List.dropWhile_cons_of_pos rfl⟩

/-- No cut has a longer label than the cut at the last colon of the first word. -/
theorem Cuts.length_le {line label value : String} {body before after : List Char}
    (cuts : Cuts line label value) (shape : line.toList = ' ' :: ' ' :: body)
    (word : body.takeWhile (fun letter => !isBlank letter) = before ++ ':' :: after)
    (noColon : ':' ∉ after) : label.length ≤ before.length := by
  obtain ⟨gap, otherShape, -, parts⟩ := cuts.shape
  rw [shape] at otherShape
  simp only [List.cons.injEq, true_and] at otherShape
  rw [otherShape, (parts _).1] at word
  rw [← String.length_toList]
  rcases List.append_eq_append_iff.mp word with ⟨extra, longer, -⟩ | ⟨extra, longer, rest⟩
  · simp [longer]
  · -- a longer label would end at a colon of `after`
    cases extra with
    | nil => simp [longer]
    | cons first extra =>
        obtain ⟨-, inside⟩ := List.cons.inj rest
        rw [inside] at noColon
        simp at noColon

/-- What is read as a field is a field line. -/
theorem isFieldLine_of_fieldLine? {line label value : String}
    (read : fieldLine? line.toList = some (label, value)) : IsFieldLine line label value := by
  obtain ⟨body, before, after, shape, word, nonempty, noColon, rfl, rfl, -⟩ :=
    fieldLine?_eq_some_iff.mp read
  have whole := List.takeWhile_append_dropWhile (p := fun letter => !isBlank letter) (l := body)
  generalize body.dropWhile (fun letter => !isBlank letter) = later at whole ⊢
  refine ⟨⟨by simpa using nonempty, ?_, ?_⟩, fun other rest cuts => ?_, ?_⟩
  · intro letter member
    rw [String.toList_ofList] at member
    have inWord := List.mem_append_left (':' :: after) member
    rw [← word] at inWord
    simpa using List.mem_takeWhile_imp inWord
  · refine ⟨String.ofList ((after ++ later).takeWhile isBlank), ?_, ?_⟩
    · rw [← String.toList_inj, shape, ← whole, word]
      simp [List.takeWhile_append_dropWhile]
    · intro letter member
      rw [String.toList_ofList] at member
      exact List.mem_takeWhile_imp member
  · rw [← @String.length_toList (String.ofList before), String.toList_ofList]
    exact cuts.length_le shape word noColon
  · rw [String.toList_ofList]
    exact head_dropWhile

/-- The first word of a field line has no colon after that of the label. -/
theorem IsFieldLine.colon_notMem {line label value : String} {tail : List Char}
    (cut : IsFieldLine line label value)
    (shape : line.toList = ' ' :: ' ' :: (label.toList ++ ':' :: tail)) :
    ':' ∉ tail.takeWhile fun letter => !isBlank letter := by
  intro member
  have whole := List.takeWhile_append_dropWhile (p := fun letter => !isBlank letter) (l := tail)
  generalize tail.dropWhile (fun letter => !isBlank letter) = others at whole
  obtain ⟨front, back, split⟩ := List.append_of_mem member
  have visible : ∀ letter ∈ front, isBlank letter = false := by
    intro letter inside
    have inWord := List.mem_append_left (':' :: back) inside
    rw [← split] at inWord
    simpa using List.mem_takeWhile_imp inWord
  -- a further colon would allow a longer label
  have cuts : Cuts line (label ++ ":" ++ String.ofList front)
      (String.ofList (back ++ others)) := by
    refine ⟨by simp, ?_, "", ?_, by simp⟩
    · intro letter inside
      simp only [String.toList_append, String.toList_ofList, List.mem_append] at inside
      rcases inside with (inLabel | isColon) | inFront
      · exact cut.cuts.visible letter inLabel
      · rw [show letter = ':' by simpa using isColon]
        decide
      · exact visible letter inFront
    · rw [← String.toList_inj, shape, ← whole, split]
      simp
  have tooLong := cut.longest _ _ cuts
  simp only [String.length_append] at tooLong
  have colon : ":".length = 1 := rfl
  omega

/-- A field line without line feed is read as a field. -/
theorem IsFieldLine.fieldLine?_eq {line label value : String} (cut : IsFieldLine line label value)
    (oneLine : '\n' ∉ line.toList) : fieldLine? line.toList = some (label, value) := by
  obtain ⟨gap, shape, blank, parts⟩ := cut.cuts.shape
  obtain ⟨word, later⟩ := parts (gap ++ value.toList)
  refine fieldLine?_eq_some_iff.mpr ⟨_, label.toList, _, shape, word,
    by simpa using cut.cuts.nonempty, cut.colon_notMem shape, by simp, ?_, fun member => ?_⟩
  · rw [later, List.takeWhile_append_dropWhile, List.dropWhile_append_of_pos blank,
      dropWhile_eq_self cut.start]
    simp
  · apply oneLine
    rw [shape]
    simp [member]

/-- In a line without line feed, a field is read as the line is cut. -/
theorem fieldLine?_iff {line label value : String} (oneLine : '\n' ∉ line.toList) :
    fieldLine? line.toList = some (label, value) ↔ IsFieldLine line label value :=
  ⟨isFieldLine_of_fieldLine?, fun cut => cut.fieldLine?_eq oneLine⟩

theorem keyLine?_iff {line : String} {key : Key} (oneLine : '\n' ∉ line.toList) :
    keyLine? line.toList = some key ↔
      line = key ++ ":" ∧ ∃ first rest, key.toList = first :: rest ∧ isBlank first = false := by
  have whole : line.toList = key.toList ++ [':'] ↔ line = key ++ ":" := by
    rw [← String.toList_inj, String.toList_append]
    rfl
  rw [keyLine?_eq_some_iff, whole]
  constructor
  · rintro ⟨shape, first, rest, parts, visible, -⟩
    exact ⟨shape, first, rest, parts, visible⟩
  · rintro ⟨rfl, first, rest, parts, visible⟩
    refine ⟨rfl, first, rest, parts, visible, fun member => oneLine ?_⟩
    rw [String.toList_append, parts]
    simp [member]

/-! ## What is read of a list -/

theorem splitItemsFrom_ne_nil (item letters : List Char) : splitItemsFrom item letters ≠ [] := by
  fun_induction splitItemsFrom item letters <;> simp_all

/-- The pieces of a text, put together again, are the text. -/
theorem intercalate_splitItemsFrom (item letters : List Char) :
    [',', ' '].intercalate (splitItemsFrom item letters) = item.reverse ++ letters := by
  fun_induction splitItemsFrom item letters with
  | case1 item => simp
  | case2 item rest induction =>
      obtain ⟨first, others, shape⟩ := List.exists_cons_of_ne_nil (splitItemsFrom_ne_nil [] rest)
      rw [shape] at induction ⊢
      rw [List.intercalate_cons_cons, induction]
      simp
  | case3 item head rest _ induction => simp [induction]

theorem items?_iff {value : String} {items : List String} :
    items? value = some items ↔ SpellsItems value items := by
  rw [items?_eq_some_iff]
  constructor
  · rintro ⟨inner, shape, content⟩
    refine ⟨String.ofList inner, ?_, ?_⟩
    · rw [← String.toList_inj, shape]
      simp
    · rw [trim, String.toList_ofList]
      rcases content with ⟨blank, rfl⟩ | ⟨inside, wellFormed, rfl⟩
      · exact ⟨by rw [blank]; rfl, by simp⟩
      · constructor
        · rw [← String.toList_inj]
          have joined := intercalate_splitItemsFrom [] (dropAround isBlank inner)
          simpa [Function.comp_def] using joined.symm
        · intro item listed
          obtain ⟨piece, member, rfl⟩ := List.mem_map.mp listed
          obtain ⟨nonempty, trimmed⟩ := isItem_iff.mp (wellFormed piece member)
          refine ⟨by simpa using nonempty, ?_, ?_⟩
          · rw [trim_eq_self_iff, String.toList_ofList, trimmed]
          · have undivided : ¬ [',', ' '] <:+: piece :=
              not_infix_of_mem_splitItemsFrom (by simp) (by simp) member
            rw [contains, ← Bool.not_eq_true, occursIn_iff_infix]
            simpa using undivided
  · rintro ⟨inner, rfl, joined, wellFormed⟩
    have content : dropAround isBlank inner.toList =
        [',', ' '].intercalate (items.map String.toList) := by
      have letters := congrArg String.toList joined
      rw [trim, String.toList_ofList] at letters
      simpa using letters
    refine ⟨inner.toList, by simp, ?_⟩
    cases items with
    | nil => exact .inl ⟨content, rfl⟩
    | cons first items =>
        have pieces : ∀ item ∈ first.toList :: items.map String.toList,
            isItem item = true ∧ ¬ [',', ' '] <:+: item := by
          rw [← List.map_cons]
          intro item member
          obtain ⟨text, listed, rfl⟩ := List.mem_map.mp member
          obtain ⟨nonempty, trimmed, undivided⟩ := wellFormed text listed
          refine ⟨isItem_iff.mpr ⟨by simpa using nonempty, trim_eq_self_iff.mp trimmed⟩, ?_⟩
          rw [← occursIn_iff_infix, Bool.not_eq_true]
          exact undivided
        obtain ⟨inside, -⟩ := dropAround_intercalate fun item member => (pieces item member).1
        rw [content, List.map_cons,
          splitItemsFrom_intercalate fun item member => (pieces item member).2]
        exact .inr ⟨inside, fun item member => (pieces item member).1, by simp⟩

theorem SpellsItems.unique {value : String} {left right : List String}
    (spellsLeft : SpellsItems value left) (spellsRight : SpellsItems value right) : left = right :=
  Option.some.inj ((items?_iff.mpr spellsLeft).symm.trans (items?_iff.mpr spellsRight))

end TableText

end CallGraph
