import CallGraph.Pattern.Reading
import CallGraph.Text.CharacterName

/-!
# Escapes in a pattern

What a backslash and a character stand for: a class, a condition on the position, a character by
its number or its name, a group that has been matched, or the character itself.
-/

namespace CallGraph.Pattern

open Text Parse

/-- An octal digit. -/
def isOctal (c : Char) : Bool := '0' ≤ c && c ≤ '7'

/-- An ASCII digit. -/
def isDecimal (c : Char) : Bool := '0' ≤ c && c ≤ '9'

/-- An ASCII letter. -/
def isLetter (c : Char) : Bool := ('a' ≤ c && c ≤ 'z') || ('A' ≤ c && c ≤ 'Z')

/-- Exactly `count` hexadecimal digits as a code point. -/
def hexCode (count : Nat) : Parse Nat := do
  let digits ← takeWhile isHexDigit count
  if digits.length = count then return numeral 16 digits else refuse

/-- The code points of the short escapes. -/
def shortEscape? : Char → Option Nat
  | 'a' => some 7
  | 'b' => some 8
  | 'f' => some 12
  | 'n' => some 10
  | 'r' => some 13
  | 't' => some 9
  | 'v' => some 11
  | '\\' => some 92
  | _ => none

/-- The class of a letter. -/
def charClass? (ascii : Bool) : Char → Option CharClass
  | 'd' => some ⟨.digit, false, ascii⟩
  | 'D' => some ⟨.digit, true, ascii⟩
  | 's' => some ⟨.space, false, ascii⟩
  | 'S' => some ⟨.space, true, ascii⟩
  | 'w' => some ⟨.word, false, ascii⟩
  | 'W' => some ⟨.word, true, ascii⟩
  | _ => none

/-- The number from which on a code point is out of all bounds. -/
def codeLimit : Nat := 0x80000000

/-- A name in braces as a code point. -/
def namedCode : Parse Nat := do
  expect '\x7b'
  match codeOfName? (← upTo '\x7d') with
  | some code => return code
  | none => refuse

/-- The code point of an escape by number or by name, which a letter begins. -/
def codedEscape? (letter : Char) : Option (Parse Nat) :=
  match letter with
  | 'x' => some (hexCode 2)
  | 'u' => some (hexCode 4)
  | 'U' => some do
      let code ← hexCode 8
      if code ≥ codeLimit then throw .numberTooLarge
      if code ≤ 0x10FFFF then return code else refuse
  | 'N' => some namedCode
  | _ => none

/-- Whether a group may be referred to. -/
def checkReference (number : Nat) : Parse Unit := do
  let reading ← get
  if (reading.widths.lookup number).isNone then refuse
  match reading.behind with
  | some first => if number ≥ first then refuse
  | none => pure ()

/-- Whether a condition may ask for a group, as far as a lookbehind restricts it. -/
def checkCondition (number : Nat) : Parse Unit := do
  if (← get).behind.isSome then checkReference number

/-- A character that stands for itself. -/
def literal (flags : Flags) (code : Nat) : Node Single :=
  .single (.literal false code flags.folding)

/-- A reference or an octal code, which a digit other than zero begins. -/
def digitEscape (flags : Flags) (first : Char) : Parse (Node Single) := do
  let second ← takeWhile isDecimal 1
  let third ←
    if isOctal first && !second.isEmpty && second.all isOctal then takeWhile isOctal 1
    else pure []
  if third.isEmpty then
    let number := numeral 10 (first :: second)
    checkReference number
    return .reference number flags.folding
  else
    let code := numeral 8 (first :: second ++ third)
    if code > 0xFF then refuse else return literal flags code

/-- What a backslash and a character stand for outside a set. -/
def escape (flags : Flags) (letter : Char) : Parse (Node Single) := do
  match charClass? flags.ascii letter with
  | some kind => return .single (.set false [.chars kind] flags.folding)
  | none =>
      match letter with
      | 'A' => return .anchor .textStart
      | 'Z' => return .anchor .textEnd
      | 'b' => return .anchor (.wordEdge false flags.ascii)
      | 'B' => return .anchor (.wordEdge true flags.ascii)
      | '0' => return literal flags (numeral 8 (← takeWhile isOctal 2))
      | _ =>
          match shortEscape? letter with
          | some code => return literal flags code
          | none =>
              match codedEscape? letter with
              | some code => return literal flags (← code)
              | none =>
                  if isDecimal letter then digitEscape flags letter
                  else if isLetter letter then refuse
                  else return literal flags letter.toNat

/-- What a backslash and a character stand for in a set. -/
def setEscape (flags : Flags) (letter : Char) : Parse Member := do
  match shortEscape? letter with
  | some code => return .literal code
  | none =>
      match charClass? flags.ascii letter with
      | some kind => return .chars kind
      | none =>
          match codedEscape? letter with
          | some code => return .literal (← code)
          | none =>
              if isOctal letter then
                let digits ← takeWhile isOctal 2
                let code := numeral 8 (letter :: digits)
                if code > 0xFF then refuse else return .literal code
              else if isDecimal letter || isLetter letter then refuse
              else return .literal letter.toNat

end CallGraph.Pattern
