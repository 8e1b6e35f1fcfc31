import CallGraph.Text.Blank
import CallGraph.Text.Digit

/-!
# Integers in a text

An integer in decimal notation, with the digits of any script.  White space around it does not
count, a sign may precede it, and single underscores may stand between its digits.
-/

namespace CallGraph.Text

/-- The number that digits of any script write, with single underscores between them. -/
def groupedNumeral? (letters : List Char) : Option Nat :=
  let groups := letters.splitOnP (· == '_')
  if groups.all fun group => !group.isEmpty && group.all isDigit then
    some (groups.flatten.foldl (fun total c => total * 10 + (digitValue? c).getD 0) 0)
  else none

/-- The integer that a text writes. -/
def integer? (text : String) : Option Int :=
  match dropAround isWhiteSpace text.toList with
  | '+' :: letters => (groupedNumeral? letters).map Int.ofNat
  | '-' :: letters => (groupedNumeral? letters).map fun value => -Int.ofNat value
  | letters => (groupedNumeral? letters).map Int.ofNat

end CallGraph.Text
