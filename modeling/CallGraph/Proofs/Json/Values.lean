import CallGraph.Proofs.Json.Scalars
import Mathlib.Data.List.Forall2

/-!
# Written values

A text is read as a value if the reader takes it for that value wherever it stands, as long as
there is fuel for its letters and room for its depth.  Lists and objects are put together from
texts that are read, with blanks where the printer may put a line break.
-/

namespace CallGraph.Json

open Text

/-! ## Blanks -/

section Blanks

variable {rule : NumberRule} {fuel depth : Nat} {letters gap : List Char}

/-- Nothing but blanks. -/
def IsGap (gap : List Char) : Prop := ∀ letter ∈ gap, isSpace letter = true

theorem isGap_nil : IsGap [] := by
  intro letter member
  cases member

theorem isGap_blank : IsGap [' '] := by
  intro letter member
  rw [List.mem_singleton.mp member]
  rfl

theorem isGap_breakLine (depth : Nat) : IsGap (breakLine depth) := by
  intro letter member
  rcases List.mem_cons.mp member with rfl | blank
  · rfl
  · rw [(List.mem_replicate.mp blank).2]
    rfl

@[simp] theorem skipSpace_skipSpace : skipSpace (skipSpace letters) = skipSpace letters := by
  induction letters with
  | nil => rfl
  | cons letter letters induction =>
      by_cases blank : isSpace letter = true
      · simpa [skipSpace, blank] using induction
      · simp [skipSpace, blank]

theorem skipSpace_append (blank : IsGap gap) : skipSpace (gap ++ letters) = skipSpace letters :=
  List.dropWhile_append_of_pos blank

theorem skipSpace_cons {letter : Char} (visible : isSpace letter = false) :
    skipSpace (letter :: letters) = letter :: letters := by
  simp [skipSpace, visible]

theorem value?_skipSpace :
    value? rule fuel depth (skipSpace letters) = value? rule fuel depth letters := by
  cases fuel with
  | zero => rw [value?, value?]
  | succ fuel => rw [value?, value?, skipSpace_skipSpace]

theorem value?_append (blank : IsGap gap) :
    value? rule fuel depth (gap ++ letters) = value? rule fuel depth letters := by
  rw [← value?_skipSpace, skipSpace_append blank, value?_skipSpace]

theorem items?_skipSpace :
    items? rule fuel depth (skipSpace letters) = items? rule fuel depth letters := by
  cases fuel with
  | zero => rw [items?, items?]
  | succ fuel => rw [items?, items?, value?_skipSpace]

theorem fields?_skipSpace {known : List (String × Data)} :
    fields? rule fuel depth known (skipSpace letters) = fields? rule fuel depth known letters := by
  cases fuel with
  | zero => rw [fields?, fields?]
  | succ fuel => rw [fields?, fields?, skipSpace_skipSpace]

/-- A mark after a value. -/
def IsMark (mark : Char) : Prop := mark = ',' ∨ mark = ']' ∨ mark = '\x7d'

theorem IsMark.ends {mark : Char} (isMark : IsMark mark) (rest : List Char) :
    Ends (mark :: rest) := by
  intro first isFirst
  cases isFirst
  rcases isMark with rfl | rfl | rfl <;> decide

theorem IsMark.ends_after {mark : Char} (isMark : IsMark mark) (blank : IsGap gap)
    (rest : List Char) : Ends (gap ++ mark :: rest) := by
  cases gap with
  | nil => exact isMark.ends rest
  | cons letter gap =>
      intro first isFirst
      cases isFirst
      have isBlank := blank letter List.mem_cons_self
      simp only [isSpace, Bool.or_eq_true, beq_iff_eq] at isBlank
      rcases isBlank with ((rfl | rfl) | rfl) | rfl <;> decide

end Blanks

/-! ## Texts that are read -/

/-- Whatever ends it, a text is read as a value where lists and objects may nest `depth` deep. -/
def Reads (depth : Nat) (text : List Char) (value : Data) : Prop :=
  ∀ fuel deep rest, text.length < fuel → depth ≤ deep → Ends rest →
    value? .machine fuel deep (text ++ rest) = some (value, rest)

section Scalars

variable {depth : Nat}

theorem reads_null : Reads depth ['n', 'u', 'l', 'l'] .null := by
  intro fuel deep rest enough _ _
  obtain ⟨fuel, rfl⟩ := Nat.exists_eq_add_one_of_ne_zero (Nat.ne_zero_of_lt enough)
  rfl

theorem reads_true : Reads depth ['t', 'r', 'u', 'e'] (.bool true) := by
  intro fuel deep rest enough _ _
  obtain ⟨fuel, rfl⟩ := Nat.exists_eq_add_one_of_ne_zero (Nat.ne_zero_of_lt enough)
  rfl

theorem reads_false : Reads depth ['f', 'a', 'l', 's', 'e'] (.bool false) := by
  intro fuel deep rest enough _ _
  obtain ⟨fuel, rfl⟩ := Nat.exists_eq_add_one_of_ne_zero (Nat.ne_zero_of_lt enough)
  rfl

theorem reads_text (text : String) : Reads depth (writeText text) (.text text) := by
  intro fuel deep rest enough _ _
  obtain ⟨fuel, rfl⟩ := Nat.exists_eq_add_one_of_ne_zero (Nat.ne_zero_of_lt enough)
  have read := textBody_written text.toList rest
  simp only [writeText, List.cons_append, List.append_assoc, List.nil_append]
  rw [value?, skipSpace_cons rfl]
  simp only [read, Option.map_some, String.ofList_toList]

theorem value?_digit {rule : NumberRule} {fuel : Nat} {first : Char} {letters : List Char}
    (isDigit : isAsciiDigit first = true) :
    value? rule (fuel + 1) depth (first :: letters) = number? rule false (first :: letters) := by
  have visible : isSpace first = false := by
    rw [Bool.eq_false_iff]
    intro blank
    simp only [isSpace, Bool.or_eq_true, beq_iff_eq] at blank
    rcases blank with ((rfl | rfl) | rfl) | rfl <;> cases isDigit
  rw [value?, skipSpace_cons visible]
  split <;> first | rfl | next same => cases same <;> cases isDigit

theorem reads_int {number : Int} (fits : -signedBound ≤ number ∧ number < unsignedBound) :
    Reads depth (writeInt number) (.int number) := by
  intro fuel deep rest enough _ ends
  obtain ⟨fuel, rfl⟩ := Nat.exists_eq_add_one_of_ne_zero (Nat.ne_zero_of_lt enough)
  unfold writeInt
  split
  · next negative =>
      rw [List.cons_append, value?, skipSpace_cons rfl]
      exact number?_written true number.natAbs (by rw [if_pos rfl]; omega) fits ends
  · next positive =>
      have digits := (toDigits_spec number.natAbs).1
      cases shown : Nat.toDigits 10 number.natAbs with
      | nil => exact absurd shown Nat.toDigits_ne_nil
      | cons first more =>
          rw [List.cons_append, value?_digit (digits first (by simp [shown])), ← List.cons_append,
            ← shown]
          exact number?_written false number.natAbs (by rw [if_neg (by decide)]; omega) fits ends

end Scalars

/-! ## Lists -/

section Lists

variable {depth fuel deep : Nat} {gap last rest : List Char}

@[simp] theorem joinWith_singleton (separator item : List Char) :
    joinWith separator [item] = item := by
  simp [joinWith]

@[simp] theorem joinWith_cons_cons (separator item next : List Char) (more : List (List Char)) :
    joinWith separator (item :: next :: more) =
      item ++ (separator ++ joinWith separator (next :: more)) := by
  simp [joinWith]

/-- Items between brackets, with blanks before each of them and before the closing bracket. -/
def bracketed (opening closing : Char) (gap last : List Char) (items : List (List Char)) :
    List Char :=
  if items.isEmpty then [opening, closing]
  else opening :: (gap ++ (joinWith (',' :: gap) items ++ (last ++ [closing])))

theorem bracketed_cons (opening closing : Char) (item : List Char) (items : List (List Char)) :
    bracketed opening closing gap last (item :: items) =
      opening :: (gap ++ (joinWith (',' :: gap) (item :: items) ++ (last ++ [closing]))) := rfl

theorem compact_eq_bracketed (opening closing : Char) (items : List (List Char)) :
    opening :: joinWith [','] items ++ [closing] = bracketed opening closing [] [] items := by
  cases items <;> rfl

theorem writeBlock_eq_bracketed (opening closing : Char) (level : Nat)
    (items : List (List Char)) :
    writeBlock opening closing level items =
      bracketed opening closing (breakLine (level + 1)) (breakLine level) items := by
  simp only [writeBlock, bracketed, List.cons_append, List.append_assoc]

theorem value?_closing {rule : NumberRule} {letters : List Char}
    (closes : skipSpace letters = ']' :: rest) : value? rule fuel depth letters = none := by
  cases fuel with
  | zero => rw [value?]
  | succ fuel =>
      rw [value?, closes]
      rfl

theorem items?_closing {rule : NumberRule} {letters : List Char}
    (closes : skipSpace letters = ']' :: rest) : items? rule fuel depth letters = none := by
  cases fuel with
  | zero => rw [items?]
  | succ fuel =>
      rw [items?, value?_closing closes]
      rfl

/-- A list that has an item is not taken for the empty one. -/
theorem value?_bracket (rule : NumberRule) (fuel depth : Nat) (letters : List Char) :
    value? rule (fuel + 1) (depth + 1) ('[' :: letters) =
      match skipSpace letters with
      | ']' :: rest => some (.list [], rest)
      | rest => (items? rule fuel depth rest).map fun items => (.list items.1, items.2) := by
  rw [value?, skipSpace_cons rfl]
  rfl

theorem value?_list {rule : NumberRule} {letters : List Char} {items : List Data}
    (read : items? rule fuel depth letters = some (items, rest)) :
    value? rule (fuel + 1) (depth + 1) ('[' :: letters) = some (.list items, rest) := by
  rw [value?_bracket]
  split
  · next closes =>
      rw [items?_closing closes] at read
      cases read
  · rw [items?_skipSpace, read]
    rfl

/-- The items of a written list, up to its closing bracket. -/
theorem items?_written {texts : List (List Char)} {items : List Data}
    (each : List.Forall₂ (Reads depth) texts items) (present : texts ≠ []) (blank : IsGap gap)
    (blankLast : IsGap last) (room : depth ≤ deep)
    (enough : (joinWith (',' :: gap) texts ++ (last ++ [']'])).length < fuel) :
    items? .machine fuel deep (joinWith (',' :: gap) texts ++ (last ++ ']' :: rest)) =
      some (items, rest) := by
  induction each generalizing fuel with
  | nil => exact absurd rfl present
  | @cons text item texts items reads each induction =>
      obtain ⟨fuel, rfl⟩ := Nat.exists_eq_add_one_of_ne_zero (Nat.ne_zero_of_lt enough)
      cases each with
      | nil =>
          simp only [joinWith_singleton, List.length_append, List.length_singleton] at enough ⊢
          have ends : Ends (last ++ ']' :: rest) :=
            IsMark.ends_after (.inr (.inl rfl)) blankLast rest
          rw [items?, reads fuel deep _ (by omega) room ends]
          simp only [Option.bind_eq_bind, Option.bind_some, skipSpace_append blankLast,
            skipSpace_cons (show isSpace ']' = false from rfl)]
      | cons next each =>
          simp only [joinWith_cons_cons, List.append_assoc, List.cons_append, List.length_append,
            List.length_cons] at enough induction ⊢
          rw [items?, reads fuel deep _ (by omega) room
            (IsMark.ends (.inl rfl) _)]
          simp only [Option.bind_eq_bind, Option.bind_some,
            skipSpace_cons (show isSpace ',' = false from rfl)]
          rw [← items?_skipSpace, skipSpace_append blank, items?_skipSpace,
            induction (by simp) (by omega)]
          rfl

theorem reads_list {texts : List (List Char)} {items : List Data}
    (each : List.Forall₂ (Reads depth) texts items) (blank : IsGap gap) (blankLast : IsGap last) :
    Reads (depth + 1) (bracketed '[' ']' gap last texts) (.list items) := by
  intro fuel deep rest enough room _
  obtain ⟨fuel, rfl⟩ := Nat.exists_eq_add_one_of_ne_zero (Nat.ne_zero_of_lt enough)
  obtain ⟨deep, rfl⟩ := Nat.exists_eq_add_one_of_ne_zero (Nat.ne_zero_of_lt room)
  cases each with
  | nil => rfl
  | cons first each =>
      simp only [bracketed_cons, List.length_cons, List.length_append, List.cons_append,
        List.append_assoc, List.nil_append] at enough ⊢
      refine value?_list ?_
      rw [← items?_skipSpace, skipSpace_append blank, items?_skipSpace]
      exact items?_written (.cons first each) (List.cons_ne_nil _ _) blank blankLast (by omega)
        (by simp; omega)

end Lists

/-! ## Objects -/

section Objects

variable {depth fuel deep : Nat} {gap last rest : List Char}

/-- A field as it is written: its name, a colon, and what is read as its value. -/
def ReadsField (depth : Nat) (text : List Char) (field : String × Data) : Prop :=
  ∃ gap value, IsGap gap ∧ Reads depth value field.2 ∧
    text = writeText field.1 ++ ':' :: (gap ++ value)

/-- Add fields one after the other. -/
def putFields (known fields : List (String × Data)) : List (String × Data) :=
  fields.foldl (fun known field => Data.putField known field.1 field.2) known

theorem putField_fresh {known : List (String × Data)} {name : String} (value : Data)
    (fresh : name ∉ known.map Prod.fst) :
    Data.putField known name value = known ++ [(name, value)] := by
  have absent : (known.any fun field => field.1 == name) = false := by
    rw [List.any_eq_false]
    intro field member same
    exact fresh (eq_of_beq same ▸ List.mem_map_of_mem member)
  rw [Data.putField, absent]
  rfl

theorem putFields_distinct {known fields : List (String × Data)}
    (distinct : ((known ++ fields).map Prod.fst).Nodup) :
    putFields known fields = known ++ fields := by
  induction fields generalizing known with
  | nil => rw [List.append_nil]; rfl
  | cons field fields induction =>
      have split : known ++ field :: fields = known ++ [field] ++ fields := by simp
      have fresh : field.1 ∉ known.map Prod.fst := by
        intro member
        rw [List.map_append, List.nodup_append] at distinct
        exact distinct.2.2 _ member _ List.mem_cons_self rfl
      rw [putFields, List.foldl_cons, putField_fresh field.2 fresh, split]
      exact induction (split ▸ distinct)

/-- One field, up to the mark after it: a comma, after which more fields are read, or the closing
brace. -/
theorem fields?_field {text letters : List Char} {field : String × Data}
    {known : List (String × Data)} (reads : ReadsField depth text field)
    (room : depth ≤ deep) (enough : text.length < fuel) (ends : Ends letters) :
    (∀ rest, skipSpace letters = ',' :: rest →
        fields? .machine (fuel + 1) deep known (text ++ letters) =
          fields? .machine fuel deep (Data.putField known field.1 field.2) rest) ∧
      ∀ rest, skipSpace letters = '\x7d' :: rest →
        fields? .machine (fuel + 1) deep known (text ++ letters) =
          some (Data.putField known field.1 field.2, rest) := by
  obtain ⟨gap, value, blank, reads, rfl⟩ := reads
  have name := textBody_written field.1.toList (':' :: (gap ++ (value ++ letters)))
  have colon : skipSpace (':' :: (gap ++ (value ++ letters))) =
      ':' :: (gap ++ (value ++ letters)) := skipSpace_cons rfl
  simp only [writeText, List.length_append, List.length_cons] at enough
  have read := reads fuel deep letters (by omega) room ends
  simp only [writeText, List.cons_append, List.append_assoc, List.nil_append]
  rw [fields?, skipSpace_cons rfl]
  constructor
  · intro rest after
    simp only [name, Option.bind_eq_bind, Option.bind_some, colon, value?_append blank, read,
      String.ofList_toList, after]
  · intro rest after
    simp only [name, Option.bind_eq_bind, Option.bind_some, colon, value?_append blank, read,
      String.ofList_toList, after]

/-- The fields of a written object, up to its closing brace. -/
theorem fields?_written {texts : List (List Char)} {fields known : List (String × Data)}
    (each : List.Forall₂ (ReadsField depth) texts fields) (present : texts ≠ [])
    (blank : IsGap gap) (blankLast : IsGap last) (room : depth ≤ deep)
    (enough : (joinWith (',' :: gap) texts ++ (last ++ ['\x7d'])).length < fuel) :
    fields? .machine fuel deep known (joinWith (',' :: gap) texts ++ (last ++ '\x7d' :: rest)) =
      some (putFields known fields, rest) := by
  induction each generalizing fuel known with
  | nil => exact absurd rfl present
  | @cons text field texts fields reads each induction =>
      obtain ⟨fuel, rfl⟩ := Nat.exists_eq_add_one_of_ne_zero (Nat.ne_zero_of_lt enough)
      cases each with
      | nil =>
          simp only [joinWith_singleton, List.length_append, List.length_singleton] at enough ⊢
          have ends : Ends (last ++ '\x7d' :: rest) :=
            IsMark.ends_after (.inr (.inr rfl)) blankLast rest
          have closes : skipSpace (last ++ '\x7d' :: rest) = '\x7d' :: rest := by
            rw [skipSpace_append blankLast, skipSpace_cons rfl]
          exact (fields?_field reads room (by omega) ends).2 rest closes
      | cons next each =>
          simp only [joinWith_cons_cons, List.append_assoc, List.cons_append, List.length_append,
            List.length_cons] at enough induction ⊢
          rw [(fields?_field reads room (by omega) (IsMark.ends (.inl rfl) _)).1 _
              (skipSpace_cons rfl), ← fields?_skipSpace, skipSpace_append blank, fields?_skipSpace,
            induction (by simp) (by omega)]
          rfl

theorem fields?_closing {rule : NumberRule} {known : List (String × Data)} {letters : List Char}
    (closes : skipSpace letters = '\x7d' :: rest) :
    fields? rule fuel depth known letters = none := by
  cases fuel with
  | zero => rw [fields?]
  | succ fuel =>
      rw [fields?, closes]
      rfl

/-- An object that has a field is not taken for the empty one. -/
theorem value?_brace (rule : NumberRule) (fuel depth : Nat) (letters : List Char) :
    value? rule (fuel + 1) (depth + 1) ('\x7b' :: letters) =
      match skipSpace letters with
      | '\x7d' :: rest => some (.object [], rest)
      | rest =>
          (fields? rule fuel depth [] rest).map fun fields => (.object fields.1, fields.2) := by
  rw [value?, skipSpace_cons rfl]
  rfl

theorem value?_object {rule : NumberRule} {letters : List Char} {fields : List (String × Data)}
    (read : fields? rule fuel depth [] letters = some (fields, rest)) :
    value? rule (fuel + 1) (depth + 1) ('\x7b' :: letters) = some (.object fields, rest) := by
  rw [value?_brace]
  split
  · next closes =>
      rw [fields?_closing closes] at read
      cases read
  · rw [fields?_skipSpace, read]
    rfl

theorem reads_object {texts : List (List Char)} {fields : List (String × Data)}
    (each : List.Forall₂ (ReadsField depth) texts fields) (distinct : (fields.map Prod.fst).Nodup)
    (blank : IsGap gap) (blankLast : IsGap last) :
    Reads (depth + 1) (bracketed '\x7b' '\x7d' gap last texts) (.object fields) := by
  intro fuel deep rest enough room _
  obtain ⟨fuel, rfl⟩ := Nat.exists_eq_add_one_of_ne_zero (Nat.ne_zero_of_lt enough)
  obtain ⟨deep, rfl⟩ := Nat.exists_eq_add_one_of_ne_zero (Nat.ne_zero_of_lt room)
  have alone : putFields [] fields = fields := putFields_distinct distinct
  cases each with
  | nil => rfl
  | cons first each =>
      simp only [bracketed_cons, List.length_cons, List.length_append, List.cons_append,
        List.append_assoc, List.nil_append] at enough ⊢
      refine value?_object ?_
      rw [← fields?_skipSpace, skipSpace_append blank, fields?_skipSpace,
        fields?_written (.cons first each) (List.cons_ne_nil _ _) blank blankLast (by omega)
          (by simp; omega), alone]

end Objects

end CallGraph.Json
