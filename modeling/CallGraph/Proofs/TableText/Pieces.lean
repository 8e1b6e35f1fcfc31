import CallGraph.Proofs.Trimming
import CallGraph.Table.Reader

/-!
# The pieces of a persisted table

What a reader makes of the pieces that are written: key lines, field lines and lists.  Each piece is
read back as it was, provided that its texts keep clear of what separates them, and what is read of
any piece keeps clear of it.
-/

namespace CallGraph

namespace TableText

open Text

/-! ## Lists -/

/-- A text that an item of a list may be. -/
structure ListItem (item : String) : Prop where
  /-- It is not empty. -/
  nonempty : item ≠ ""
  /-- It has no blanks around it. -/
  trimmed : trim item = item
  /-- It does not contain the separator of items. -/
  undivided : contains item ", " = false
  /-- It has no line boundaries. -/
  oneLine : OneLine item

variable {item letters rest : List Char}

instance (item : String) : Decidable (ListItem item) :=
  decidable_of_iff
    (item ≠ "" ∧ trim item = item ∧ contains item ", " = false ∧ OneLine item)
    ⟨fun ⟨nonempty, trimmed, undivided, oneLine⟩ => ⟨nonempty, trimmed, undivided, oneLine⟩,
      fun ⟨nonempty, trimmed, undivided, oneLine⟩ => ⟨nonempty, trimmed, undivided, oneLine⟩⟩

theorem splitItemsFrom_cons {letter : Char} (item rest : List Char)
    (unseparated : letter = ',' → rest.head? ≠ some ' ') :
    splitItemsFrom item (letter :: rest) = splitItemsFrom (letter :: item) rest := by
  rw [splitItemsFrom.eq_3]
  rintro others rfl rfl
  exact unseparated rfl rfl

theorem head?_ne_of_undivided {letter : Char} (undivided : ¬ [',', ' '] <:+: letter :: letters) :
    letter = ',' → letters.head? ≠ some ' ' := by
  rintro rfl first
  obtain ⟨others, rfl⟩ := List.head?_eq_some_iff.mp first
  exact undivided ⟨[], others, rfl⟩

theorem splitItemsFrom_of_not_infix (item : List Char) (undivided : ¬ [',', ' '] <:+: letters) :
    splitItemsFrom item letters = [item.reverse ++ letters] := by
  induction letters generalizing item with
  | nil => simp [splitItemsFrom]
  | cons letter letters induction =>
      have later : ¬ [',', ' '] <:+: letters := fun inside =>
        undivided (List.infix_cons_iff.mpr (.inr inside))
      rw [splitItemsFrom_cons _ _ (head?_ne_of_undivided undivided), induction _ later]
      simp

theorem splitItemsFrom_append_separator (item rest : List Char)
    (undivided : ¬ [',', ' '] <:+: letters) :
    splitItemsFrom item (letters ++ ',' :: ' ' :: rest) =
      (item.reverse ++ letters) :: splitItemsFrom [] rest := by
  induction letters generalizing item with
  | nil => simp [splitItemsFrom]
  | cons letter letters induction =>
      have later : ¬ [',', ' '] <:+: letters := fun inside =>
        undivided (List.infix_cons_iff.mpr (.inr inside))
      have unseparated : letter = ',' → (letters ++ ',' :: ' ' :: rest).head? ≠ some ' ' := by
        intro comma
        cases letters with
        | nil => simp
        | cons second others => simpa using head?_ne_of_undivided undivided comma
      rw [List.cons_append, splitItemsFrom_cons _ _ unseparated, induction _ later]
      simp

/-- Items that are written with their separator are read back. -/
theorem splitItemsFrom_intercalate {first : List Char} {items : List (List Char)}
    (undivided : ∀ item ∈ first :: items, ¬ [',', ' '] <:+: item) :
    splitItemsFrom [] ([',', ' '].intercalate (first :: items)) = first :: items := by
  induction items generalizing first with
  | nil => simpa using splitItemsFrom_of_not_infix [] (undivided first List.mem_cons_self)
  | cons second items induction =>
      have later := induction fun item member => undivided item (List.mem_cons_of_mem _ member)
      rw [List.intercalate_cons_cons, List.append_assoc, List.cons_append, List.cons_append,
        List.nil_append, splitItemsFrom_append_separator _ _ (undivided first List.mem_cons_self),
        later]
      rfl

theorem mem_of_mem_splitItemsFrom {piece : List Char} {letter : Char}
    (listed : piece ∈ splitItemsFrom item letters) (member : letter ∈ piece) :
    letter ∈ item ∨ letter ∈ letters := by
  fun_induction splitItemsFrom item letters with
  | case1 item =>
      rw [List.mem_singleton.mp listed, List.mem_reverse] at member
      exact .inl member
  | case2 item rest induction =>
      rcases List.mem_cons.mp listed with rfl | later
      · exact .inl (List.mem_reverse.mp member)
      · rcases induction later with none | inRest
        · cases none
        · exact .inr (List.mem_cons_of_mem _ (List.mem_cons_of_mem _ inRest))
  | case3 item head rest _ induction =>
      rcases induction listed with inItem | inRest
      · rcases List.mem_cons.mp inItem with rfl | earlier
        · exact .inr List.mem_cons_self
        · exact .inl earlier
      · exact .inr (List.mem_cons_of_mem _ inRest)

/-- No piece contains the separator. -/
theorem not_infix_of_mem_splitItemsFrom {piece : List Char}
    (before : ¬ [',', ' '] <:+: item.reverse)
    (unseparated : item.head? = some ',' → letters.head? ≠ some ' ')
    (listed : piece ∈ splitItemsFrom item letters) : ¬ [',', ' '] <:+: piece := by
  fun_induction splitItemsFrom item letters with
  | case1 item =>
      rw [List.mem_singleton.mp listed]
      exact before
  | case2 item rest induction =>
      rcases List.mem_cons.mp listed with rfl | later
      · exact before
      · exact induction (by simp) (by simp) later
  | case3 item head rest noSeparator induction =>
      refine induction ?_ ?_ listed
      · rw [List.reverse_cons]
        rintro ⟨front, back, shape⟩
        rcases List.eq_nil_or_concat back with rfl | ⟨others, last, rfl⟩
        · -- the separator would end with the letter that is put to the item
          have regrouped : (front ++ [',']) ++ [' '] = item.reverse ++ [head] := by
            simpa using shape
          obtain ⟨ends, ⟨⟩⟩ := List.append_inj' regrouped rfl
          have isComma : item.head? = some ',' := by
            rw [← List.getLast?_reverse, ← ends]
            simp
          exact unseparated isComma rfl
        · have regrouped : (front ++ [',', ' '] ++ others) ++ [last] = item.reverse ++ [head] := by
            simpa using shape
          exact before ⟨front, others, (List.append_inj' regrouped rfl).1⟩
      · intro isComma isSpace
        obtain ⟨others, rfl⟩ := List.head?_eq_some_iff.mp isSpace
        exact noSeparator others (Option.some.inj isComma) rfl

theorem isItem_iff {letters : List Char} :
    isItem letters = true ↔ letters ≠ [] ∧ dropAround isBlank letters = letters := by
  simp [isItem]

theorem listItem_iff {text : String} :
    ListItem text ↔
      isItem text.toList = true ∧ ¬ [',', ' '] <:+: text.toList ∧ OneLine text := by
  have nonempty : text ≠ "" ↔ text.toList ≠ [] := by simp
  have divided : contains text ", " = false ↔ ¬ [',', ' '] <:+: text.toList := by
    rw [← occursIn_iff_infix, Bool.not_eq_true]
    rfl
  rw [isItem_iff, ← nonempty, ← trim_eq_self_iff, ← divided]
  constructor
  · rintro ⟨nonempty, trimmed, undivided, oneLine⟩
    exact ⟨⟨nonempty, trimmed⟩, undivided, oneLine⟩
  · rintro ⟨⟨nonempty, trimmed⟩, undivided, oneLine⟩
    exact ⟨nonempty, trimmed, undivided, oneLine⟩

theorem dropAround_intercalate {first : List Char} {items : List (List Char)}
    (wellFormed : ∀ item ∈ first :: items, isItem item = true) :
    [',', ' '].intercalate (first :: items) ≠ [] ∧
      dropAround isBlank ([',', ' '].intercalate (first :: items)) =
        [',', ' '].intercalate (first :: items) := by
  induction items generalizing first with
  | nil => simpa using isItem_iff.mp (wellFormed first List.mem_cons_self)
  | cons second items induction =>
      have later := induction fun item member => wellFormed item (List.mem_cons_of_mem _ member)
      have start := isItem_iff.mp (wellFormed first List.mem_cons_self)
      rw [List.intercalate_cons_cons]
      exact ⟨by simp [start.1],
        dropAround_append_append _ start.1 later.1 start.2 later.2⟩

/-- The lists that are read: blanks in brackets, or items that are separated in brackets. -/
theorem items?_eq_some_iff {value : String} {items : List String} :
    items? value = some items ↔
      ∃ inner, value.toList = '[' :: (inner ++ [']']) ∧
        (dropAround isBlank inner = [] ∧ items = [] ∨
          dropAround isBlank inner ≠ [] ∧
            (∀ item ∈ splitItemsFrom [] (dropAround isBlank inner), isItem item = true) ∧
            items = (splitItemsFrom [] (dropAround isBlank inner)).map String.ofList) := by
  constructor
  · intro read
    unfold items? at read
    split at read
    · next rest shape =>
        split at read
        · next last =>
            obtain ⟨inner, rfl⟩ := List.getLast?_eq_some_iff.mp last
            refine ⟨inner, shape, ?_⟩
            rw [List.dropLast_concat] at read
            simp only [List.isEmpty_iff, List.all_eq_true] at read
            split at read
            · next blank => exact .inl ⟨blank, (Option.some.inj read).symm⟩
            · next inside =>
                split at read
                · next wellFormed => exact .inr ⟨inside, wellFormed, (Option.some.inj read).symm⟩
                · cases read
        · cases read
    · cases read
  · rintro ⟨inner, shape, content⟩
    unfold items?
    rw [shape]
    simp only [List.getLast?_concat, List.dropLast_concat, List.isEmpty_iff, List.all_eq_true]
    rcases content with ⟨blank, rfl⟩ | ⟨inside, wellFormed, rfl⟩
    · rw [if_pos blank]
    · rw [if_neg inside, if_pos wellFormed]

/-- A list that is written is read back. -/
theorem items?_written {items : List String} (wellFormed : ∀ item ∈ items, ListItem item) :
    items? ("[" ++ ", ".intercalate items ++ "]") = some items := by
  refine items?_eq_some_iff.mpr ⟨[',', ' '].intercalate (items.map String.toList), ?_, ?_⟩
  · simp
  · cases items with
    | nil => exact .inl ⟨rfl, rfl⟩
    | cons first items =>
        have pieces : ∀ item ∈ first.toList :: items.map String.toList,
            isItem item = true ∧ ¬ [',', ' '] <:+: item := by
          rw [← List.map_cons]
          intro item member
          obtain ⟨text, listed, rfl⟩ := List.mem_map.mp member
          have separate := listItem_iff.mp (wellFormed text listed)
          exact ⟨separate.1, separate.2.1⟩
        obtain ⟨inside, trimmed⟩ := dropAround_intercalate fun item member => (pieces item member).1
        rw [List.map_cons, trimmed,
          splitItemsFrom_intercalate fun item member => (pieces item member).2]
        exact .inr ⟨inside, fun item member => (pieces item member).1, by simp⟩

/-- Whatever is read as a list in a line may be written as a list. -/
theorem listItem_of_items? {value text : String} {items : List String}
    (read : items? value = some items) (oneLine : OneLine value) (listed : text ∈ items) :
    ListItem text := by
  obtain ⟨inner, shape, ⟨-, rfl⟩ | ⟨-, wellFormed, rfl⟩⟩ := items?_eq_some_iff.mp read
  · cases listed
  · obtain ⟨piece, member, rfl⟩ := List.mem_map.mp listed
    rw [listItem_iff, String.toList_ofList]
    refine ⟨wellFormed piece member,
      not_infix_of_mem_splitItemsFrom (by simp) (by simp) member, ?_⟩
    intro letter inside
    rw [String.toList_ofList] at inside
    have inInner : letter ∈ inner := by
      rcases mem_of_mem_splitItemsFrom member inside with none | found
      · cases none
      · exact mem_of_mem_dropAround found
    exact oneLine letter (by simp [shape, inInner])

/-! ## Key lines -/

theorem keyLine?_eq_some_iff {letters : List Char} {key : Key} :
    keyLine? letters = some key ↔
      letters = key.toList ++ [':'] ∧
        ∃ first rest, key.toList = first :: rest ∧ isBlank first = false ∧ '\n' ∉ rest := by
  constructor
  · intro read
    unfold keyLine? at read
    split at read
    · cases read
    · next first rest =>
        split at read
        · next last =>
            obtain ⟨middle, rfl⟩ := List.getLast?_eq_some_iff.mp last
            rw [List.dropLast_concat] at read
            split at read
            · cases read
            · next clear =>
                cases read
                refine ⟨by simp, first, middle, by simp, ?_⟩
                simpa using clear
        · cases read
  · rintro ⟨rfl, first, rest, shape, visible, noNewline⟩
    have whole : String.ofList (first :: rest) = key := by rw [← shape, String.ofList_toList]
    simp [keyLine?, shape, visible, noNewline, whole]

theorem keyLine?_of_blank {first : Char} (rest : List Char) (blank : isBlank first = true) :
    keyLine? (first :: rest) = none := by
  unfold keyLine?
  simp only [blank, Bool.true_or, if_true]
  split <;> rfl

theorem isSkipped_cons {first : Char} (rest : List Char) (visible : isBlank first = false) :
    isSkipped (first :: rest) = (first == '#') := by
  simp [isSkipped, visible]

end TableText

/-- A key that a line may hold. -/
structure Key.Representable (key : Key) : Prop where
  /-- It starts with a letter that neither indents the line nor makes it a comment. -/
  start : ∃ first rest, key.toList = first :: rest ∧ Text.isBlank first = false ∧ first ≠ '#'
  /-- It has no line boundaries. -/
  oneLine : Text.OneLine key

namespace TableText

open Text

/-- The line of a key is read back. -/
theorem keyLine?_written {key : Key} (representable : key.Representable) :
    isSkipped (dropTrailing isBlank (key ++ ":").toList) = false ∧
      keyLine? (dropTrailing isBlank (key ++ ":").toList) = some key := by
  obtain ⟨first, rest, shape, visible, noComment⟩ := representable.start
  have untouched : dropTrailing isBlank (key ++ ":").toList = key.toList ++ [':'] := by
    rw [String.toList_append, dropTrailing_eq_self]
    · rfl
    · simp [show ":".toList = [':'] from rfl, show isBlank ':' = false by decide]
  have noNewline : '\n' ∉ rest := fun member =>
    representable.oneLine.newline_not_mem (shape ▸ List.mem_cons_of_mem _ member)
  rw [untouched]
  constructor
  · rw [shape, List.cons_append, isSkipped_cons _ visible]
    simpa using noComment
  · exact keyLine?_eq_some_iff.mpr ⟨rfl, first, rest, shape, visible, noNewline⟩

/-- Whatever is read as a key may be written as a key. -/
theorem representable_of_keyLine? {line : String} {key : Key} (oneLine : OneLine line)
    (counts : isSkipped (dropTrailing isBlank line.toList) = false)
    (read : keyLine? (dropTrailing isBlank line.toList) = some key) : key.Representable := by
  obtain ⟨whole, first, rest, shape, visible, -⟩ := keyLine?_eq_some_iff.mp read
  rw [whole, shape, List.cons_append, isSkipped_cons _ visible] at counts
  refine ⟨⟨first, rest, shape, visible, by simpa using counts⟩, ?_⟩
  intro letter member
  apply oneLine letter
  apply mem_of_mem_dropTrailing
  rw [whole]
  exact List.mem_append_left _ member

/-! ## Field lines -/

/-- A word that may stand before the colon of a field. -/
structure IsLabel (label : List Char) : Prop where
  /-- It is not empty. -/
  nonempty : label ≠ []
  /-- It has no blanks and no comment marks. -/
  clear : ∀ letter ∈ label, isBlank letter = false ∧ letter ≠ '#'

theorem isLabel_label (field : BlockField) : IsLabel field.label.toList := by
  have clear : field.label.toList ≠ [] ∧
      field.label.toList.all (fun letter => !isBlank letter && letter != '#') = true := by
    rcases field with (_ | _ | _) | ((_ | _ | _ | _) | _) <;> decide
  refine ⟨clear.1, fun letter member => ?_⟩
  simpa using List.all_eq_true.mp clear.2 letter member

section FieldLine

variable {label value : List Char}

theorem splitAtLastColon?_concat (isLabel : IsLabel label) :
    splitAtLastColon? (label ++ [':']) = some (label, []) := by
  simp [splitAtLastColon?, isLabel.nonempty]

/-- The line of a field without its trailing blanks: an empty value leaves the colon at the end. -/
theorem dropTrailing_field (front : List Char) (trimmed : dropAround isBlank value = value) :
    dropTrailing isBlank (front ++ ':' :: ' ' :: value) =
      front ++ ':' :: if value = [] then [] else ' ' :: value := by
  split
  · next empty =>
      subst empty
      rw [show front ++ [':', ' '] = (front ++ [':']) ++ [' '] by simp]
      simp [dropTrailing, show isBlank ' ' = true by decide, show isBlank ':' = false by decide]
  · next inside =>
      apply dropTrailing_eq_self
      rw [show front ++ ':' :: ' ' :: value = (front ++ [':', ' ']) ++ value by simp,
        List.getLast?_append_of_ne_nil _ inside]
      exact (dropAround_eq_self_iff.mp trimmed).2

/-- The line of a field is read back. -/
theorem fieldLine?_written (isLabel : IsLabel label) (trimmed : dropAround isBlank value = value)
    (noNewline : '\n' ∉ value) :
    ∃ letters, dropTrailing isBlank (' ' :: ' ' :: label ++ ':' :: ' ' :: value) = letters ∧
      isSkipped letters = false ∧ keyLine? letters = none ∧
        fieldLine? letters = some (String.ofList label, String.ofList value) := by
  have space : isBlank ' ' = true := by decide
  refine ⟨_, dropTrailing_field _ trimmed, ?_, keyLine?_of_blank _ space, ?_⟩
  · obtain ⟨first, others, rfl⟩ := List.exists_cons_of_ne_nil isLabel.nonempty
    have start := isLabel.clear first List.mem_cons_self
    simp [isSkipped, space, start.1, start.2]
  · have visible : ∀ letter ∈ label ++ [':'], (!isBlank letter) = true := by
      intro letter member
      rcases List.mem_append.mp member with inLabel | isColon
      · simp [isLabel.clear letter inLabel]
      · rw [List.mem_singleton.mp isColon]
        decide
    have first := (dropAround_eq_self_iff.mp trimmed).1
    -- the first word ends at the space after the colon, or at the end of the line
    generalize tailed : (if value = [] then [] else ' ' :: value) = tail
    have whole : label ++ ':' :: tail = (label ++ [':']) ++ tail := by simp
    have word : tail.takeWhile (fun letter => !isBlank letter) = [] ∧
        tail.dropWhile (fun letter => !isBlank letter) = tail := by
      subst tailed
      split <;> simp [space]
    have content : tail.dropWhile isBlank = value := by
      subst tailed
      split
      · next empty => exact empty.symm
      · rw [List.dropWhile_cons, if_pos space, dropWhile_eq_self first]
    simp only [List.cons_append, fieldLine?]
    rw [whole, List.takeWhile_append_of_pos visible, List.dropWhile_append_of_pos visible, word.1,
      word.2, List.append_nil, splitAtLastColon?_concat isLabel]
    simp [content, noNewline]

theorem mem_of_splitAtLastColon? {word before after : List Char} {letter : Char}
    (split : splitAtLastColon? word = some (before, after)) (member : letter ∈ after) :
    letter ∈ word := by
  unfold splitAtLastColon? at split
  split at split
  · split at split
    · cases split
    · cases split
      exact List.mem_reverse.mp ((List.takeWhile_prefix _).subset (List.mem_reverse.mp member))
  · cases split

/-- The value of a field stands in its line. -/
theorem mem_of_fieldLine? {letters : List Char} {label value : String} {letter : Char}
    (read : fieldLine? letters = some (label, value)) (member : letter ∈ value.toList) :
    letter ∈ letters := by
  unfold fieldLine? at read
  split at read
  · next body =>
      obtain ⟨⟨before, after⟩, parts, rest⟩ := Option.bind_eq_some_iff.mp read
      simp only at rest
      split at rest
      · cases rest
      · cases rest
        rw [String.toList_ofList] at member
        have inBody : letter ∈ body := by
          rcases List.mem_append.mp ((List.dropWhile_suffix _).subset member) with inWord | later
          · exact (List.takeWhile_prefix _).subset (mem_of_splitAtLastColon? parts inWord)
          · exact (List.dropWhile_suffix _).subset later
        exact List.mem_cons_of_mem _ (List.mem_cons_of_mem _ inBody)
  · cases read

end FieldLine

end TableText

end CallGraph
