import CallGraph.Data.Basic
import CallGraph.Text.Digit

/-!
# Reading JSON

The reader is strict: no comments, no trailing commas, no unpaired surrogates, nothing after the
value but blanks.  Lists and objects nest at most 1024 deep.  A field that comes twice keeps its
last value.  How numbers are taken is a rule of its own, because files keep them in 64 bits.
-/

namespace CallGraph.Json

open Text

/-- How numbers are taken; a number may be refused. -/
structure NumberRule where
  /-- A number without fraction and exponent. -/
  integer : Int → Option Data
  /-- A number with fraction or exponent. -/
  decimal : Decimal → Option Data

/-- Numbers as they are written. -/
def NumberRule.exact : NumberRule where
  integer number := some (.int number)
  decimal number := some (.real number)

/-- A decimal is refused if no binary number is near it. -/
def machineDecimal (number : Decimal) : Option Data :=
  if number.wholeness = .tooLarge then none else some (.real number)

/-- Numbers in 64 bits: a longer whole number counts as a decimal. -/
def NumberRule.machine : NumberRule where
  integer number :=
    if -signedBound ≤ number && number < unsignedBound then some (.int number)
    else machineDecimal ⟨number < 0, number.natAbs, 0⟩
  decimal := machineDecimal

/-- A blank between the parts of a JSON text. -/
def isSpace (c : Char) : Bool := c == ' ' || c == '\n' || c == '\r' || c == '\t'

/-- Skip blanks. -/
def skipSpace (letters : List Char) : List Char := letters.dropWhile isSpace

/-- An ASCII digit. -/
def isAsciiDigit (c : Char) : Bool := '0' ≤ c && c ≤ '9'

/-- The code unit of four hexadecimal digits. -/
def codeUnit? (a b c d : Char) : Option Nat :=
  if [a, b, c, d].all isHexDigit then some (numeral 16 [a, b, c, d]) else none

/-- The first half of a surrogate pair. -/
def isHighSurrogate (unit : Nat) : Bool := 0xD800 ≤ unit && unit < 0xDC00

/-- The second half of a surrogate pair. -/
def isLowSurrogate (unit : Nat) : Bool := 0xDC00 ≤ unit && unit < 0xE000

/-- The character of a surrogate pair. -/
def joinSurrogates (high low : Nat) : Char :=
  Char.ofNat (0x10000 + (high - 0xD800) * 0x400 + (low - 0xDC00))

/-- The character that a short escape stands for. -/
def shortEscape? (letter : Char) : Option Char :=
  match letter with
  | '"' => some '"'
  | '\\' => some '\\'
  | '/' => some '/'
  | 'b' => some (Char.ofNat 8)
  | 'f' => some (Char.ofNat 12)
  | 'n' => some '\n'
  | 'r' => some '\r'
  | 't' => some '\t'
  | _ => none

/-- The characters of a text up to its closing quote, and what follows the quote. -/
def textBody : List Char → Option (List Char × List Char)
  | [] => none
  | '"' :: rest => some ([], rest)
  | '\\' :: 'u' :: a :: b :: c :: d :: '\\' :: 'u' :: e :: f :: g :: h :: rest =>
      match codeUnit? a b c d, codeUnit? e f g h with
      | some first, some second =>
          if isHighSurrogate first then
            if isLowSurrogate second then
              (textBody rest).map fun body => (joinSurrogates first second :: body.1, body.2)
            else none
          else if isLowSurrogate first then none
          else
            (textBody ('\\' :: 'u' :: e :: f :: g :: h :: rest)).map fun body =>
              (Char.ofNat first :: body.1, body.2)
      | _, _ => none
  | '\\' :: 'u' :: a :: b :: c :: d :: rest =>
      match codeUnit? a b c d with
      | some unit =>
          if isHighSurrogate unit || isLowSurrogate unit then none
          else (textBody rest).map fun body => (Char.ofNat unit :: body.1, body.2)
      | none => none
  | '\\' :: letter :: rest =>
      match shortEscape? letter with
      | some shown => (textBody rest).map fun body => (shown :: body.1, body.2)
      | none => none
  | letter :: rest =>
      if letter.toNat < 0x20 || letter == '\\' then none
      else (textBody rest).map fun body => (letter :: body.1, body.2)

/-- The digits of a whole number without sign, which has no leading zero, and what follows. -/
def wholeDigits? (letters : List Char) : Option (List Char × List Char) :=
  match letters.takeWhile isAsciiDigit with
  | [] => none
  | '0' :: _ :: _ => none
  | digits => some (digits, letters.dropWhile isAsciiDigit)

/-- The digits after the point, if there is one, and what follows. -/
def fraction? (letters : List Char) : Option (Option (List Char) × List Char) :=
  match letters with
  | '.' :: rest =>
      let digits := rest.takeWhile isAsciiDigit
      if digits.isEmpty then none else some (some digits, rest.dropWhile isAsciiDigit)
  | _ => some (none, letters)

/-- The sign of an exponent, and what follows. -/
def exponentSign : List Char → Int × List Char
  | '-' :: rest => (-1, rest)
  | '+' :: rest => (1, rest)
  | rest => (1, rest)

/-- The exponent, if there is one, and what follows. -/
def exponent? (letters : List Char) : Option (Option Int × List Char) :=
  match letters with
  | [] => some (none, [])
  | mark :: rest =>
      if mark == 'e' || mark == 'E' then
        let (sign, rest) := exponentSign rest
        let digits := rest.takeWhile isAsciiDigit
        if digits.isEmpty then none
        else some (some (sign * numeral 10 digits), rest.dropWhile isAsciiDigit)
      else some (none, mark :: rest)

/-- A number after its sign, and what follows. -/
def number? (rule : NumberRule) (negative : Bool) (letters : List Char) :
    Option (Data × List Char) := do
  let (whole, rest) ← wholeDigits? letters
  let (fraction, rest) ← fraction? rest
  let (exponent, rest) ← exponent? rest
  let value ←
    if fraction.isNone && exponent.isNone then
      let size : Int := numeral 10 whole
      rule.integer (if negative then -size else size)
    else
      let places := fraction.getD []
      rule.decimal ⟨negative, numeral 10 (whole ++ places), exponent.getD 0 - places.length⟩
  return (value, rest)

/-- What follows a word, if a text begins with it. -/
def word? (word : List Char) (value : Data) (letters : List Char) : Option (Data × List Char) :=
  if word.isPrefixOf letters then some (value, letters.drop word.length) else none

mutual

/-- A value and what follows it.  `fuel` bounds the values and separators read, `depth` the
nesting. -/
def value? (rule : NumberRule) (fuel depth : Nat) (letters : List Char) :
    Option (Data × List Char) :=
  match fuel with
  | 0 => none
  | fuel + 1 =>
      match skipSpace letters with
      | [] => none
      | '"' :: rest => (textBody rest).map fun body => (.text (String.ofList body.1), body.2)
      | '[' :: rest =>
          match depth with
          | 0 => none
          | depth + 1 =>
              match skipSpace rest with
              | ']' :: rest => some (.list [], rest)
              | rest => (items? rule fuel depth rest).map fun items => (.list items.1, items.2)
      | '\x7b' :: rest =>
          match depth with
          | 0 => none
          | depth + 1 =>
              match skipSpace rest with
              | '\x7d' :: rest => some (.object [], rest)
              | rest =>
                  (fields? rule fuel depth [] rest).map fun fields =>
                    (.object fields.1, fields.2)
      | 't' :: rest => word? ['r', 'u', 'e'] (.bool true) rest
      | 'f' :: rest => word? ['a', 'l', 's', 'e'] (.bool false) rest
      | 'n' :: rest => word? ['u', 'l', 'l'] .null rest
      | '-' :: rest => number? rule true rest
      | rest => number? rule false rest

/-- The items of a list up to its closing bracket, and what follows the bracket. -/
def items? (rule : NumberRule) (fuel depth : Nat) (letters : List Char) :
    Option (List Data × List Char) :=
  match fuel with
  | 0 => none
  | fuel + 1 => do
      let (item, rest) ← value? rule fuel depth letters
      match skipSpace rest with
      | ',' :: rest => (items? rule fuel depth rest).map fun items => (item :: items.1, items.2)
      | ']' :: rest => some ([item], rest)
      | _ => none

/-- The fields of an object up to its closing brace, added to those read before, and what follows
the brace. -/
def fields? (rule : NumberRule) (fuel depth : Nat) (known : List (String × Data))
    (letters : List Char) : Option (List (String × Data) × List Char) :=
  match fuel with
  | 0 => none
  | fuel + 1 =>
      match skipSpace letters with
      | '"' :: rest => do
          let (name, rest) ← textBody rest
          match skipSpace rest with
          | ':' :: rest =>
              let (value, rest) ← value? rule fuel depth rest
              let known := Data.putField known (String.ofList name) value
              match skipSpace rest with
              | ',' :: rest => fields? rule fuel depth known rest
              | '\x7d' :: rest => some (known, rest)
              | _ => none
          | _ => none
      | _ => none

end

/-- How deep lists and objects may nest. -/
def maxDepth : Nat := 1024

/-- Read a JSON text. -/
def parse? (rule : NumberRule) (text : String) : Option Data :=
  let letters := text.toList
  match value? rule (2 * letters.length + 2) maxDepth letters with
  | some (value, rest) => if (skipSpace rest).isEmpty then some value else none
  | none => none

end CallGraph.Json
