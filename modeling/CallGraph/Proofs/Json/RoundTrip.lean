import CallGraph.Proofs.Json.Values
import CallGraph.Proofs.Sorting

/-!
# Documents that are read back

Data without fractions, infinities and moments is read back from both layouts, with the fields of
all objects in increasing order of their names.  In the compact layout it stands on one line.
-/

namespace CallGraph

/-! ## Data that survives -/

namespace Data

/-- Data that the printer shows without loss. -/
inductive Exact : Data → Prop
  /-- Nothing. -/
  | null : Exact .null
  /-- A truth value. -/
  | bool (value : Bool) : Exact (.bool value)
  /-- A whole number. -/
  | int (number : Int) : Exact (.int number)
  /-- A text. -/
  | text (value : String) : Exact (.text value)
  /-- A list of such data. -/
  | list (items : List Data) (each : ∀ item ∈ items, Exact item) : Exact (.list items)
  /-- An object of such data in which no name comes twice. -/
  | object (fields : List (String × Data)) (distinct : (fields.map Prod.fst).Nodup)
      (each : ∀ field ∈ fields, Exact field.2) : Exact (.object fields)

/-- Fields in increasing order of their names. -/
def inOrder (fields : List (String × Data)) : List (String × Data) :=
  fields.mergeSort fun left right => decide (left.1 ≤ right.1)

mutual

/-- Data with the fields of all objects in increasing order of their names. -/
def sorted : Data → Data
  | .list items => .list (sortedItems items)
  | .object fields => .object (inOrder (sortedFields fields))
  | value => value

/-- The items of a list, each with sorted fields. -/
def sortedItems : List Data → List Data
  | [] => []
  | item :: items => item.sorted :: sortedItems items

/-- The fields of an object, each with sorted fields. -/
def sortedFields : List (String × Data) → List (String × Data)
  | [] => []
  | (name, value) :: fields => (name, value.sorted) :: sortedFields fields

end

theorem sortedItems_eq_map (items : List Data) : sortedItems items = items.map sorted := by
  induction items with
  | nil => rw [sortedItems, List.map_nil]
  | cons item items induction => rw [sortedItems, induction, List.map_cons]

theorem sortedFields_eq_map (fields : List (String × Data)) :
    sortedFields fields = fields.map fun field => (field.1, field.2.sorted) := by
  induction fields with
  | nil => rw [sortedFields, List.map_nil]
  | cons field fields induction => rw [sortedFields, induction, List.map_cons]

end Data

namespace Json

open Data

section Members

theorem compactItems_eq_map (items : List Data) : compactItems items = items.map compact := by
  induction items with
  | nil => rw [compactItems, List.map_nil]
  | cons item items induction => rw [compactItems, induction, List.map_cons]

theorem compactFields_eq_map (fields : List (String × Data)) :
    compactFields fields = fields.map fun field => (field.1, compact field.2) := by
  induction fields with
  | nil => rw [compactFields, List.map_nil]
  | cons field fields induction => rw [compactFields, induction, List.map_cons]

theorem indentedItems_eq_map (level : Nat) (items : List Data) :
    indentedItems level items = items.map (indented level) := by
  induction items with
  | nil => rw [indentedItems, List.map_nil]
  | cons item items induction => rw [indentedItems, induction, List.map_cons]

theorem indentedFields_eq_map (level : Nat) (fields : List (String × Data)) :
    indentedFields level fields = fields.map fun field => (field.1, indented level field.2) := by
  induction fields with
  | nil => rw [indentedFields, List.map_nil]
  | cons field fields induction => rw [indentedFields, induction, List.map_cons]

theorem itemsFit_iff {depth : Nat} {items : List Data} :
    itemsFit depth items = true ↔ ∀ item ∈ items, fits depth item = true := by
  induction items with
  | nil => simp [itemsFit]
  | cons item items induction => simp [itemsFit, induction]

theorem fieldsFit_iff {depth : Nat} {fields : List (String × Data)} :
    fieldsFit depth fields = true ↔ ∀ field ∈ fields, fits depth field.2 = true := by
  induction fields with
  | nil => simp [fieldsFit]
  | cons field fields induction => simp [fieldsFit, induction]

end Members

/-! ## Both layouts -/

section Layouts

variable {depth : Nat} {items : List Data} {fields : List (String × Data)} {gap last : List Char}

/-- The items of a list as a layout shows them. -/
theorem forall₂_items {write : Data → List Char}
    (each : ∀ item ∈ items, Reads depth (write item) item.sorted) :
    List.Forall₂ (Reads depth) (items.map write) (sortedItems items) := by
  rw [sortedItems_eq_map, List.forall₂_map_left_iff, List.forall₂_map_right_iff,
    List.forall₂_same]
  exact each

/-- The fields of an object as a layout shows them, with blanks after the colon. -/
theorem forall₂_fields {write : Data → List Char} (blank : IsGap gap)
    (each : ∀ field ∈ fields, Reads depth (write field.2) field.2.sorted) :
    List.Forall₂ (ReadsField depth)
      ((sortFields (fields.map fun field => (field.1, write field.2))).map fun field =>
        writeText field.1 ++ ':' :: (gap ++ field.2))
      (inOrder (sortedFields fields)) := by
  rw [sortedFields_eq_map, sortFields, inOrder, mergeSort_map_second, mergeSort_map_second,
    List.map_map, List.forall₂_map_left_iff, List.forall₂_map_right_iff, List.forall₂_same]
  intro field member
  exact ⟨gap, write field.2, blank, each field (List.mem_mergeSort.mp member), rfl⟩

theorem names_sorted_nodup (distinct : (fields.map Prod.fst).Nodup) :
    ((inOrder (sortedFields fields)).map Prod.fst).Nodup := by
  have names : (sortedFields fields).map Prod.fst = fields.map Prod.fst := by
    rw [sortedFields_eq_map, List.map_map]
    rfl
  exact nodup_mergeSort_first (names ▸ distinct)

/-- Data is read back from one line. -/
theorem reads_compact {value : Data} (exact : value.Exact) (room : fits depth value = true) :
    Reads depth (compact value) value.sorted := by
  induction exact generalizing depth with
  | null => simpa only [compact, sorted] using reads_null
  | bool value =>
      cases value
      · simpa only [compact, sorted] using reads_false
      · simpa only [compact, sorted] using reads_true
  | int number =>
      simp only [fits, Bool.and_eq_true, decide_eq_true_eq] at room
      simpa only [compact, sorted] using reads_int room
  | text value => simpa only [compact, sorted] using reads_text value
  | list items each induction =>
      simp only [fits, Bool.and_eq_true, decide_eq_true_eq, itemsFit_iff] at room
      obtain ⟨depth, rfl⟩ := Nat.exists_eq_add_one_of_ne_zero (Nat.ne_zero_of_lt room.1)
      rw [compact, sorted, compactItems_eq_map, compact_eq_bracketed]
      exact reads_list (forall₂_items fun item member =>
        induction item member (room.2 item member)) isGap_nil isGap_nil
  | object fields distinct each induction =>
      simp only [fits, Bool.and_eq_true, decide_eq_true_eq, fieldsFit_iff] at room
      obtain ⟨depth, rfl⟩ := Nat.exists_eq_add_one_of_ne_zero (Nat.ne_zero_of_lt room.1)
      rw [compact, sorted, compactFields_eq_map, compact_eq_bracketed]
      exact reads_object (forall₂_fields isGap_nil fun field member =>
        induction field member (room.2 field member)) (names_sorted_nodup distinct) isGap_nil
        isGap_nil

/-- Data is read back from several lines, at any level. -/
theorem reads_indented {value : Data} (exact : value.Exact) (room : fits depth value = true)
    (level : Nat) : Reads depth (indented level value) value.sorted := by
  induction exact generalizing depth level with
  | null => exact reads_compact .null room
  | bool value => exact reads_compact (.bool value) room
  | int number => exact reads_compact (.int number) room
  | text value => exact reads_compact (.text value) room
  | list items each induction =>
      simp only [fits, Bool.and_eq_true, decide_eq_true_eq, itemsFit_iff] at room
      obtain ⟨depth, rfl⟩ := Nat.exists_eq_add_one_of_ne_zero (Nat.ne_zero_of_lt room.1)
      rw [indented, sorted, indentedItems_eq_map, writeBlock_eq_bracketed]
      exact reads_list (forall₂_items fun item member =>
        induction item member (room.2 item member) (level + 1)) (isGap_breakLine _)
        (isGap_breakLine _)
  | object fields distinct each induction =>
      simp only [fits, Bool.and_eq_true, decide_eq_true_eq, fieldsFit_iff] at room
      obtain ⟨depth, rfl⟩ := Nat.exists_eq_add_one_of_ne_zero (Nat.ne_zero_of_lt room.1)
      rw [indented, sorted, indentedFields_eq_map, writeBlock_eq_bracketed]
      exact reads_object (forall₂_fields isGap_blank fun field member =>
        induction field member (room.2 field member) (level + 1)) (names_sorted_nodup distinct)
        (isGap_breakLine _) (isGap_breakLine _)

end Layouts

/-! ## One line -/

section OneLine

theorem newline_notMem_hexDigits : ∀ code < 0x20, '\n' ∉ Text.hexDigits 4 code := by
  decide +kernel

theorem newline_notMem_escapeChar (letter : Char) : '\n' ∉ escapeChar letter := by
  unfold escapeChar
  split
  · decide
  split
  · decide
  split
  · decide
  next notFeed =>
  split
  · decide
  split
  · decide
  split
  · decide
  split
  · decide
  split
  · next small =>
      intro member
      simp only [List.mem_cons, Char.reduceEq, false_or] at member
      exact newline_notMem_hexDigits letter.toNat small member
  · intro member
    exact notFeed (beq_iff_eq.mpr (List.mem_singleton.mp member).symm)

theorem newline_notMem_writeText (text : String) : '\n' ∉ writeText text := by
  simp [writeText, newline_notMem_escapeChar]

theorem newline_notMem_writeInt (number : Int) : '\n' ∉ writeInt number := by
  have digits : '\n' ∉ Nat.toDigits 10 number.natAbs := fun member =>
    absurd ((toDigits_spec _).1 _ member) (by decide)
  unfold writeInt
  split
  · simpa using digits
  · exact digits

theorem mem_joinWith {letter : Char} {separator : List Char} {texts : List (List Char)}
    (member : letter ∈ joinWith separator texts) :
    letter ∈ separator ∨ ∃ text ∈ texts, letter ∈ text := by
  induction texts with
  | nil => cases member
  | cons text texts induction =>
      cases texts with
      | nil => exact .inr ⟨text, List.mem_cons_self, by simpa using member⟩
      | cons next texts =>
          rw [joinWith_cons_cons, List.mem_append, List.mem_append] at member
          rcases member with inside | between | after
          · exact .inr ⟨text, List.mem_cons_self, inside⟩
          · exact .inl between
          · exact (induction after).imp_right fun ⟨other, listed, inside⟩ =>
              ⟨other, List.mem_cons_of_mem _ listed, inside⟩

theorem newline_notMem_enclosed {opening closing : Char} {texts : List (List Char)}
    (opens : opening ≠ '\n') (closes : closing ≠ '\n') (each : ∀ text ∈ texts, '\n' ∉ text) :
    '\n' ∉ opening :: joinWith [','] texts ++ [closing] := by
  intro member
  simp only [List.mem_append, List.mem_cons, List.not_mem_nil, or_false] at member
  rcases member with (first | inside) | last
  · exact opens first.symm
  · rcases mem_joinWith inside with separator | ⟨text, listed, inside⟩
    · simp at separator
    · exact each text listed inside
  · exact closes last.symm

/-- The compact layout has no line break, whatever the texts hold. -/
theorem newline_notMem_compact {value : Data} (exact : value.Exact) : '\n' ∉ compact value := by
  induction exact with
  | null => decide
  | bool value => cases value <;> decide
  | int number => simpa only [compact] using newline_notMem_writeInt number
  | text value => simpa only [compact] using newline_notMem_writeText value
  | list items each induction =>
      rw [compact, compactItems_eq_map]
      exact newline_notMem_enclosed (by decide) (by decide) (by simpa using induction)
  | object fields distinct each induction =>
      rw [compact, compactFields_eq_map]
      refine newline_notMem_enclosed (by decide) (by decide) ?_
      intro text member
      obtain ⟨written, listed, rfl⟩ := List.mem_map.mp member
      obtain ⟨field, present, rfl⟩ := List.mem_map.mp (List.mem_mergeSort.mp listed)
      simpa [newline_notMem_writeText] using induction field present

end OneLine

/-! ## Documents -/

/-- What is read where nothing but blanks follows is the value of the whole text. -/
theorem Reads.parse? {depth : Nat} {text : List Char} {value : Data}
    (reads : Reads depth text value) (room : depth ≤ maxDepth) :
    parse? .machine (String.ofList text) = some value := by
  have read := reads (2 * text.length + 2) maxDepth [] (by omega) room
    (fun first isFirst => by cases isFirst)
  rw [List.append_nil] at read
  simp only [Json.parse?, String.toList_ofList, read]
  rfl

/-- A document gives back its data, with the fields of objects in increasing order. -/
theorem parse?_document {value : Data} (exact : value.Exact) (writable : isWritable value = true) :
    parse? .machine (document value) = some value.sorted :=
  (reads_indented exact writable 0).parse? (by decide)

/-- A line gives back its data, with the fields of objects in increasing order. -/
theorem parse?_compact {value : Data} (exact : value.Exact) (writable : isWritable value = true) :
    parse? .machine (String.ofList (compact value)) = some value.sorted :=
  (reads_compact exact writable).parse? (by decide)

end Json

end CallGraph
