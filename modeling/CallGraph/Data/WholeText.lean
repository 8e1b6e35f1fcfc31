import CallGraph.Text.Blank
import CallGraph.Text.Digit

/-!
# Whole numbers in texts

A text may write a whole number where one is asked for.  Read strictly it is a minus sign, if
any, and digits without leading zeros.  A text that is not such a number is read again without
what does not count: white space around it, a plus sign, leading zeros, a fraction of zeros and
single underscores between digits.  A number with too many digits is refused as such.
-/

namespace CallGraph

/-- What a text is that is to write a whole number. -/
inductive WholeText where
  /-- A whole number. -/
  | number (value : Int)
  /-- A number with too many digits. -/
  | tooLong
  /-- Not a whole number. -/
  | other
  deriving DecidableEq, Repr

namespace WholeText

/-- How many characters a whole number may have, its sign included. -/
def lengthLimit : Nat := 4300

/-- An ASCII digit. -/
def isDigit (c : Char) : Bool := '0' ≤ c && c ≤ '9'

/-- Read strictly what follows the sign. -/
def strictDigits (negative : Bool) (letters : List Char) : WholeText :=
  match letters with
  | ['0'] => number 0
  | '0' :: _ => other
  | _ =>
      let digits := letters.takeWhile isDigit
      let size := Text.numeral 10 digits
      if digits.length + (if negative then 1 else 0) > lengthLimit then tooLong
      else if digits.isEmpty || digits.length < letters.length then other
      else number (if negative then -(size : Int) else size)

/-- Read strictly. -/
def strict : List Char → WholeText
  | '-' :: letters => strictDigits true letters
  | letters => strictDigits false letters

/-- A text without its plus sign; a minus sign may not follow. -/
def dropPlus? : List Char → Option (List Char)
  | '+' :: '-' :: _ => none
  | '+' :: letters => some letters
  | letters => some letters

/-- What follows zeros and underscores, of which `last` is the one before: a number, or a fraction
with the zero before it. -/
def afterZeros? (last : Char) : List Char → Option (List Char)
  | [] => some [last]
  | letter :: letters =>
      if letter == '0' || letter == '_' then afterZeros? letter letters
      else if isDigit letter then some (letter :: letters)
      else if letter == '.' then some (last :: letter :: letters)
      else none

/-- A text without its leading zeros; it must begin with a digit or a minus sign, after which
zeros count. -/
def dropZeros? : List Char → Option (List Char)
  | [] => none
  | '0' :: letters => afterZeros? '0' letters
  | letter :: letters => if isDigit letter || letter == '-' then some (letter :: letters) else none

/-- A text without a fraction of nothing but zeros. -/
def dropFraction (letters : List Char) : List Char :=
  match letters.dropWhile (· != '.') with
  | '.' :: '0' :: places => if places.all (· == '0') then letters.takeWhile (· != '.') else letters
  | _ => letters

/-- Whether two underscores stand side by side. -/
def hasDoubleUnderscore : List Char → Bool
  | '_' :: '_' :: _ => true
  | _ :: letters => hasDoubleUnderscore letters
  | [] => false

/-- A text without its underscores, if they are single and stand inside. -/
def dropUnderscores (letters : List Char) : List Char :=
  if letters.head? == some '_' || letters.getLast? == some '_' || hasDoubleUnderscore letters then
    letters
  else letters.filter (· != '_')

/-- A text without what does not count. -/
def cleaned? (letters : List Char) : Option (List Char) := do
  let letters ← dropPlus? (Text.dropAround Text.isWhiteSpace letters)
  return dropUnderscores (dropFraction (← dropZeros? letters))

/-- What a text writes. -/
def ofText (text : String) : WholeText :=
  match strict text.toList with
  | other =>
      match cleaned? text.toList with
      | some letters => strict letters
      | none => other
  | found => found

end WholeText

end CallGraph
