import CallGraph.Json.Printer
import CallGraph.Json.Reader

/-!
# Written texts and numbers

The reader undoes what the printer does to a text, whatever its characters: every escape gives back
the character it stands for, and every other character stands for itself.  The digits of a whole
number are read up to what cannot continue them.
-/

namespace CallGraph.Json

open Text

/-! ## Texts -/

section Texts

variable {a b c d letter shown : Char} {rest : List Char} {unit : Nat}

/-- What is read of a text when a character is put before it. -/
def before (letter : Char) (body : Option (List Char × List Char)) :
    Option (List Char × List Char) :=
  body.map fun body => (letter :: body.1, body.2)

theorem textBody_no_unit (refused : codeUnit? a b c d = none) :
    textBody ('\\' :: 'u' :: a :: b :: c :: d :: rest) = none := by
  by_cases paired : ∃ e f g h more, rest = '\\' :: 'u' :: e :: f :: g :: h :: more
  · obtain ⟨e, f, g, h, more, rfl⟩ := paired
    rw [textBody.eq_3, refused]
  · rw [textBody.eq_4 _ _ _ _ _ fun e f g h more same => paired ⟨e, f, g, h, more, same⟩, refused]

/-- An escaped code unit outside the surrogates is a character of its own, also where another one
follows. -/
theorem textBody_unit (read : codeUnit? a b c d = some unit)
    (low : isLowSurrogate unit = false) (high : isHighSurrogate unit = false) :
    textBody ('\\' :: 'u' :: a :: b :: c :: d :: rest) =
      before (Char.ofNat unit) (textBody rest) := by
  by_cases paired : ∃ e f g h more, rest = '\\' :: 'u' :: e :: f :: g :: h :: more
  · obtain ⟨e, f, g, h, more, rfl⟩ := paired
    rw [textBody.eq_3, read]
    cases next : codeUnit? e f g h with
    | none => rw [textBody_no_unit next, before, Option.map_none]
    | some second => simp [low, high, before]
  · rw [textBody.eq_4 _ _ _ _ _ fun e f g h more same => paired ⟨e, f, g, h, more, same⟩, read]
    simp [low, high, before]

theorem textBody_short (short : shortEscape? letter = some shown) :
    textBody ('\\' :: letter :: rest) = before shown (textBody rest) := by
  have notUnit : letter ≠ 'u' := by
    rintro rfl
    simp [shortEscape?] at short
  rw [textBody.eq_5 _ _ (fun _ _ _ _ _ _ _ _ _ same => absurd same notUnit)
    fun _ _ _ _ _ same => absurd same notUnit, short]
  rfl

theorem textBody_plain (notQuote : letter ≠ '"') (notEscape : letter ≠ '\\')
    (visible : 0x20 ≤ letter.toNat) :
    textBody (letter :: rest) = before letter (textBody rest) := by
  rw [textBody.eq_6 _ _ notQuote (fun _ _ _ _ _ _ _ _ _ same => absurd same notEscape)
    (fun _ _ _ _ _ same => absurd same notEscape) fun _ _ same => absurd same notEscape]
  simp [notEscape, Nat.not_lt.mpr visible, before]

/-- A control is written with four digits that give it back. -/
theorem exists_hexDigits_of_lt : ∀ code < 0x20, ∃ a b c d,
    hexDigits 4 code = [a, b, c, d] ∧ codeUnit? a b c d = some code := by
  have digits : ∀ code < 0x20,
      hexDigits 4 code = ['0', '0', Nat.digitChar (code / 16), Nat.digitChar (code % 16)] ∧
        codeUnit? '0' '0' (Nat.digitChar (code / 16)) (Nat.digitChar (code % 16)) =
          some code := by decide +kernel
  intro code small
  exact ⟨_, _, _, _, digits code small⟩

theorem textBody_escapeChar (letter : Char) (rest : List Char) :
    textBody (escapeChar letter ++ rest) = before letter (textBody rest) := by
  unfold escapeChar
  split
  · next isQuote =>
      obtain rfl := eq_of_beq isQuote
      exact textBody_short rfl
  next notQuote =>
  split
  · next isEscape =>
      obtain rfl := eq_of_beq isEscape
      exact textBody_short rfl
  next notEscape =>
  split
  · next isFeed =>
      obtain rfl := eq_of_beq isFeed
      exact textBody_short rfl
  split
  · next isReturn =>
      obtain rfl := eq_of_beq isReturn
      exact textBody_short rfl
  split
  · next isTab =>
      obtain rfl := eq_of_beq isTab
      exact textBody_short rfl
  split
  · next code =>
      have same : letter = Char.ofNat 8 := by rw [← eq_of_beq code, Char.ofNat_toNat]
      exact same ▸ textBody_short rfl
  split
  · next code =>
      have same : letter = Char.ofNat 12 := by rw [← eq_of_beq code, Char.ofNat_toNat]
      exact same ▸ textBody_short rfl
  split
  · next small =>
      obtain ⟨a, b, c, d, digits, read⟩ := exists_hexDigits_of_lt _ small
      have low : isLowSurrogate letter.toNat = false := by simp [isLowSurrogate]; omega
      have high : isHighSurrogate letter.toNat = false := by simp [isHighSurrogate]; omega
      simp only [digits, List.cons_append, List.nil_append]
      rw [textBody_unit read low high, Char.ofNat_toNat]
  · next visible =>
      exact textBody_plain (by simpa using notQuote) (by simpa using notEscape)
        (Nat.not_lt.mp visible)

end Texts

/-- A written text is read back up to its closing quote. -/
theorem textBody_written (letters rest : List Char) :
    textBody (letters.flatMap escapeChar ++ '"' :: rest) = some (letters, rest) := by
  induction letters with
  | nil => rfl
  | cons letter letters induction =>
      rw [List.flatMap_cons, List.append_assoc, textBody_escapeChar, induction]
      rfl

/-! ## Whole numbers -/

/-- What follows a value cannot continue a number. -/
def Ends (rest : List Char) : Prop :=
  ∀ first ∈ rest.head?, isAsciiDigit first = false ∧ first ≠ '.' ∧ first ≠ 'e' ∧ first ≠ 'E'

theorem isAsciiDigit_digitChar {digit : Nat} (small : digit < 10) :
    isAsciiDigit digit.digitChar = true ∧ hexValue digit.digitChar = digit := by
  have all : ∀ digit < 10,
      isAsciiDigit (Nat.digitChar digit) = true ∧ hexValue (Nat.digitChar digit) = digit := by
    decide
  exact all digit small

/-- The digits of a number are digits, and they give it back. -/
theorem toDigits_spec (number : Nat) :
    (∀ digit ∈ Nat.toDigits 10 number, isAsciiDigit digit = true) ∧
      numeral 10 (Nat.toDigits 10 number) = number := by
  induction number using Nat.strongRecOn with
  | ind number induction =>
      rw [Nat.toDigits_eq_if (by decide)]
      split
      · next small =>
          obtain ⟨isDigit, value⟩ := isAsciiDigit_digitChar small
          exact ⟨by simpa using isDigit, by simpa [numeral] using value⟩
      · next large =>
          obtain ⟨digits, value⟩ := induction (number / 10) (by omega)
          obtain ⟨isDigit, last⟩ := @isAsciiDigit_digitChar (number % 10) (by omega)
          refine ⟨fun digit member => ?_, ?_⟩
          · rcases List.mem_append.mp member with front | final
            · exact digits digit front
            · rwa [List.mem_singleton.mp final]
          · rw [numeral] at value
            rw [numeral, List.foldl_append, value, List.foldl_cons, List.foldl_nil, last]
            omega

/-- A number of several digits does not begin with a zero. -/
theorem toDigits_no_leading_zero (number : Nat) (second : Char) (digits : List Char) :
    Nat.toDigits 10 number ≠ '0' :: second :: digits := by
  induction number using Nat.strongRecOn generalizing second digits with
  | ind number induction =>
      rw [Nat.toDigits_eq_if (by decide)]
      split
      · simp
      · next large =>
          intro same
          cases front : Nat.toDigits 10 (number / 10) with
          | nil => exact Nat.toDigits_ne_nil front
          | cons first more =>
              rw [front, List.cons_append, List.cons.injEq] at same
              obtain ⟨rfl, rest⟩ := same
              cases more with
              | cons next more => exact induction (number / 10) (by omega) next more front
              | nil =>
                  -- a single zero in front would be the digits of nought
                  have value := (toDigits_spec (number / 10)).2
                  rw [front] at value
                  have zero : numeral 10 ['0'] = 0 := by decide
                  omega

theorem wholeDigits?_written (number : Nat) {rest : List Char} (ends : Ends rest) :
    wholeDigits? (Nat.toDigits 10 number ++ rest) = some (Nat.toDigits 10 number, rest) := by
  have digits := (toDigits_spec number).1
  have stops : rest.takeWhile isAsciiDigit = [] ∧ rest.dropWhile isAsciiDigit = rest := by
    cases rest with
    | nil => exact ⟨rfl, rfl⟩
    | cons first rest =>
        obtain ⟨notDigit, -⟩ := ends first rfl
        simp [notDigit]
  have taken : (Nat.toDigits 10 number ++ rest).takeWhile isAsciiDigit =
      Nat.toDigits 10 number := by
    rw [List.takeWhile_append_of_pos digits, stops.1, List.append_nil]
  have left : (Nat.toDigits 10 number ++ rest).dropWhile isAsciiDigit = rest := by
    rw [List.dropWhile_append_of_pos digits, stops.2]
  unfold wholeDigits?
  rw [taken, left]
  split
  · next empty => exact absurd empty Nat.toDigits_ne_nil
  · next zero => exact absurd zero (toDigits_no_leading_zero number _ _)
  · rfl

theorem fraction?_of_ends {rest : List Char} (ends : Ends rest) :
    fraction? rest = some (none, rest) := by
  unfold fraction?
  split
  · next digits => exact absurd rfl (ends '.' rfl).2.1
  · rfl

theorem exponent?_of_ends {rest : List Char} (ends : Ends rest) :
    exponent? rest = some (none, rest) := by
  unfold exponent?
  split
  · rfl
  · next mark rest =>
      obtain ⟨-, -, small, large⟩ := ends mark rfl
      simp [small, large]

/-- A number in 64 bits is read back. -/
theorem number?_written (negative : Bool) (size : Nat) {number : Int} {rest : List Char}
    (signed : number = if negative then -(size : Int) else size)
    (fits : -signedBound ≤ number ∧ number < unsignedBound) (ends : Ends rest) :
    number? .machine negative (Nat.toDigits 10 size ++ rest) = some (.int number, rest) := by
  simp [number?, wholeDigits?_written size ends, fraction?_of_ends ends, exponent?_of_ends ends,
    (toDigits_spec size).2, ← signed, NumberRule.machine, fits]

end CallGraph.Json
