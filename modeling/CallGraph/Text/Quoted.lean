import CallGraph.Text.Printable

/-!
# Quoted texts

Messages quote the texts they speak of.  The quote is the apostrophe unless the text holds an
apostrophe and no double quote; the backslash, the quote in use and everything that is not
printable is escaped.
-/

namespace CallGraph.Text

/-- The lower-case hexadecimal digits of a number, padded with zeros to a width. -/
def hexDigits (width number : Nat) : List Char :=
  let digits := Nat.toDigits 16 number
  List.replicate (width - digits.length) '0' ++ digits

/-- How a quoted text shows one character. -/
def quoteChar (mark letter : Char) : List Char :=
  if letter == mark || letter == '\\' then ['\\', letter]
  else if letter == '\n' then ['\\', 'n']
  else if letter == '\r' then ['\\', 'r']
  else if letter == '\t' then ['\\', 't']
  else if isPrintable letter then [letter]
  else if letter.toNat < 0x100 then '\\' :: 'x' :: hexDigits 2 letter.toNat
  else if letter.toNat < 0x10000 then '\\' :: 'u' :: hexDigits 4 letter.toNat
  else '\\' :: 'U' :: hexDigits 8 letter.toNat

/-- The quotation mark for a text. -/
def quoteMark (letters : List Char) : Char :=
  if letters.contains '\'' && !letters.contains '"' then '"' else '\''

/-- A text in quotes, on one line. -/
def quote (text : String) : String :=
  let mark := quoteMark text.toList
  String.ofList (mark :: text.toList.flatMap (quoteChar mark) ++ [mark])

/-- A text in quotes, or the word for its absence. -/
def quoteOption : Option String → String
  | some text => quote text
  | none => "None"

/-- Quoted texts in brackets. -/
def quoteList (texts : List String) : String :=
  "[" ++ ", ".intercalate (texts.map quote) ++ "]"

end CallGraph.Text
