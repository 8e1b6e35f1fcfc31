import CallGraph.Data.Basic
import CallGraph.Data.Shortest
import CallGraph.Text.Quoted

/-!
# Writing JSON

Values are written in one line without blanks, or indented by two spaces with empty lists and
objects closed at once.  The fields of an object come in increasing order of their names.  A text
shows every character but the quote, the backslash and the controls.
-/

namespace CallGraph.Json

/-- How a JSON text shows one character. -/
def escapeChar (letter : Char) : List Char :=
  if letter == '"' then ['\\', '"']
  else if letter == '\\' then ['\\', '\\']
  else if letter == '\n' then ['\\', 'n']
  else if letter == '\r' then ['\\', 'r']
  else if letter == '\t' then ['\\', 't']
  else if letter.toNat == 8 then ['\\', 'b']
  else if letter.toNat == 12 then ['\\', 'f']
  else if letter.toNat < 0x20 then '\\' :: 'u' :: Text.hexDigits 4 letter.toNat
  else [letter]

/-- A text in JSON. -/
def writeText (text : String) : List Char :=
  '"' :: text.toList.flatMap escapeChar ++ ['"']

/-- A whole number in JSON. -/
def writeInt (number : Int) : List Char :=
  if number < 0 then '-' :: Nat.toDigits 10 number.natAbs else Nat.toDigits 10 number.natAbs

/-- Digits times a power of ten in JSON.  The point stands among up to sixteen digits or after at
most four zeros; all else has an exponent. -/
def writeScientific (digits : Nat) (exponent : Int) : List Char :=
  let shown := Nat.toDigits 10 digits
  let before : Int := shown.length + exponent
  if 0 ≤ exponent && before ≤ 16 then shown ++ List.replicate exponent.toNat '0' ++ ['.', '0']
  else if 0 < before && before ≤ 16 then
    shown.take before.toNat ++ '.' :: shown.drop before.toNat
  else if -5 < before && before ≤ 0 then
    '0' :: '.' :: List.replicate (-before).toNat '0' ++ shown
  else
    let fraction := if shown.length ≤ 1 then [] else '.' :: shown.drop 1
    shown.take 1 ++ fraction ++ 'e' :: writeInt (before - 1)

/-- A number with a fraction or an exponent in JSON: the fewest digits that read back. -/
def writeDecimal (number : Decimal) : List Char :=
  match number.binary? with
  | none => ['n', 'u', 'l', 'l']
  | some binary =>
      let size :=
        if binary.significand = 0 then ['0', '.', '0']
        else writeScientific binary.shortest.1 binary.shortest.2
      if number.negative then '-' :: size else size

/-- Put a list of written items together. -/
def joinWith (separator : List Char) (items : List (List Char)) : List Char :=
  (items.intersperse separator).flatten

/-- Written fields in increasing order of their names. -/
def sortFields (fields : List (String × List Char)) : List (String × List Char) :=
  fields.mergeSort fun left right => decide (left.1 ≤ right.1)

mutual

/-- A value in one line. -/
def compact : Data → List Char
  | .null | .nonFinite | .moment => ['n', 'u', 'l', 'l']
  | .bool true => ['t', 'r', 'u', 'e']
  | .bool false => ['f', 'a', 'l', 's', 'e']
  | .int number => writeInt number
  | .real number => writeDecimal number
  | .text value => writeText value
  | .list items => '[' :: joinWith [','] (compactItems items) ++ [']']
  | .object fields =>
      '\x7b' :: joinWith [',']
        ((sortFields (compactFields fields)).map fun field =>
          writeText field.1 ++ ':' :: field.2) ++ ['\x7d']

/-- The items of a list, each in one line. -/
def compactItems : List Data → List (List Char)
  | [] => []
  | item :: items => compact item :: compactItems items

/-- The fields of an object with their values, each in one line. -/
def compactFields : List (String × Data) → List (String × List Char)
  | [] => []
  | (name, value) :: fields => (name, compact value) :: compactFields fields

end

/-- A line break and the blanks that start a line at a depth. -/
def breakLine (depth : Nat) : List Char :=
  '\n' :: List.replicate (2 * depth) ' '

/-- Items on lines of their own between brackets. -/
def writeBlock (opening closing : Char) (depth : Nat) (items : List (List Char)) : List Char :=
  if items.isEmpty then [opening, closing]
  else
    opening :: breakLine (depth + 1) ++ joinWith (',' :: breakLine (depth + 1)) items ++
      breakLine depth ++ [closing]

mutual

/-- A value over several lines, at a depth. -/
def indented (depth : Nat) : Data → List Char
  | .list items => writeBlock '[' ']' depth (indentedItems (depth + 1) items)
  | .object fields =>
      writeBlock '\x7b' '\x7d' depth
        ((sortFields (indentedFields (depth + 1) fields)).map fun field =>
          writeText field.1 ++ ':' :: ' ' :: field.2)
  | .null => compact .null
  | .nonFinite => compact .nonFinite
  | .moment => compact .moment
  | .bool value => compact (.bool value)
  | .int number => compact (.int number)
  | .real number => compact (.real number)
  | .text value => compact (.text value)

/-- The items of a list, at a depth. -/
def indentedItems (depth : Nat) : List Data → List (List Char)
  | [] => []
  | item :: items => indented depth item :: indentedItems depth items

/-- The fields of an object with their values, at a depth. -/
def indentedFields (depth : Nat) : List (String × Data) → List (String × List Char)
  | [] => []
  | (name, value) :: fields => (name, indented depth value) :: indentedFields depth fields

end

mutual

/-- Whether a value can be written: whole numbers fit into 64 bits, with or without a sign, and
lists and objects nest at most `depth` deep. -/
def fits (depth : Nat) : Data → Bool
  | .int number => -signedBound ≤ number && number < unsignedBound
  | .list items => 0 < depth && itemsFit (depth - 1) items
  | .object fields => 0 < depth && fieldsFit (depth - 1) fields
  | _ => true

/-- Whether all items of a list fit. -/
def itemsFit (depth : Nat) : List Data → Bool
  | [] => true
  | item :: items => fits depth item && itemsFit depth items

/-- Whether the values of all fields fit. -/
def fieldsFit (depth : Nat) : List (String × Data) → Bool
  | [] => true
  | (_, value) :: fields => fits depth value && fieldsFit depth fields

end

/-- How deep lists and objects may nest that are written. -/
def writeDepth : Nat := 254

/-- Whether a value can be written. -/
def isWritable (value : Data) : Bool := fits writeDepth value

/-- The text of a JSON document. -/
def document (value : Data) : String :=
  String.ofList (indented 0 value)

/-- The text of a file with one JSON value a line. -/
def lines (values : List Data) : String :=
  String.ofList (values.flatMap fun value => compact value ++ ['\n'])

end CallGraph.Json
