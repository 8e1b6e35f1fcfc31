import CallGraph.Data.Basic
import CallGraph.Text.Digit

/-!
# Reading settings files

Settings are written in TOML.  The parts of the language that only group values, such as dotted
keys, tables and arrays of tables, are resolved while reading: the result is an object.  A table
may be declared once, a value is never overwritten, and what was written inline cannot be added
to.
-/

namespace CallGraph.Toml

open Text

/-- Why a document is refused. -/
inductive TomlFault where
  /-- The document is not well formed. -/
  | malformed
  /-- A number has too many digits to be read. -/
  | numberTooLong
  /-- Arrays and inline tables are nested too deeply. -/
  | tooDeep
  deriving DecidableEq, Repr

/-- A part of the reading: takes characters from the front, or fails. -/
abbrev Parse := StateT (List Char) (Except TomlFault)

/-- A control character other than the tab. -/
def isControl (c : Char) : Bool :=
  (c.toNat < 0x20 && c != '\t') || c.toNat == 0x7F

/-- A blank within a line. -/
def isLineSpace (c : Char) : Bool := c == ' ' || c == '\t'

/-- A blank between lines too. -/
def isSpace (c : Char) : Bool := isLineSpace c || c == '\n'

/-- A character of a key without quotes. -/
def isBareKey (c : Char) : Bool :=
  ('a' ≤ c && c ≤ 'z') || ('A' ≤ c && c ≤ 'Z') || ('0' ≤ c && c ≤ '9') || c == '-' || c == '_'

/-- An ASCII digit. -/
def isDecimal (c : Char) : Bool := '0' ≤ c && c ≤ '9'

namespace Parse

/-- Give up. -/
def refuse {α : Type} : Parse α := throw .malformed

/-- The next character, without taking it. -/
def peek : Parse (Option Char) := return (← get).head?

/-- Take one character. -/
def next : Parse Char := do
  match ← get with
  | [] => refuse
  | letter :: rest =>
      set rest
      return letter

/-- Take a given text if it comes next. -/
def accept (text : List Char) : Parse Bool := do
  let letters ← get
  if text.isPrefixOf letters then
    set (letters.drop text.length)
    return true
  else return false

/-- Require a given character. -/
def expect (letter : Char) : Parse Unit := do
  if !(← accept [letter]) then refuse

/-- Take the characters that a test accepts. -/
def takeWhile (test : Char → Bool) : Parse (List Char) := modifyGet fun letters =>
  (letters.takeWhile test, letters.dropWhile test)

/-- Skip the characters that a test accepts. -/
def skipWhile (test : Char → Bool) : Parse Unit := modify fun letters => letters.dropWhile test

/-- How many characters are left. -/
def size : Parse Nat := return (← get).length

end Parse

open Parse

/-- Skip a comment, if there is one. -/
def skipComment : Parse Unit := do
  if ← accept ['#'] then
    let comment ← takeWhile (· != '\n')
    if comment.any isControl then refuse

/-- Skip blanks, line ends and comments. -/
def skipSpaceAndComments : Nat → Parse Unit
  | 0 => pure ()
  | fuel + 1 => do
      skipWhile isSpace
      if (← peek) = some '#' then
        skipComment
        skipSpaceAndComments fuel

/-! ## Texts -/

/-- The characters of the short escapes. -/
def shortEscape? : Char → Option Char
  | 'b' => some (Char.ofNat 8)
  | 't' => some '\t'
  | 'n' => some '\n'
  | 'f' => some (Char.ofNat 12)
  | 'r' => some '\r'
  | '"' => some '"'
  | '\\' => some '\\'
  | _ => none

/-- The character of a fixed number of hexadecimal digits. -/
def hexEscape (count : Nat) : Parse Char := do
  let letters ← get
  let digits := letters.take count
  let code := numeral 16 digits
  if digits.length = count && digits.all isHexDigit && code.isValidChar then
    set (letters.drop count)
    return Char.ofNat code
  else refuse

/-- What an escape stands for, after its backslash.  Over several lines a backslash may hide a
line end and the blanks around it. -/
def escape (multiline : Bool) : Parse (List Char) := do
  let letter ← next
  if multiline && isSpace letter then
    if letter != '\n' then
      skipWhile isLineSpace
      match ← peek with
      | none => return []
      | some _ => expect '\n'
    skipWhile isSpace
    return []
  else if letter == 'u' then return [← hexEscape 4]
  else if letter == 'U' then return [← hexEscape 8]
  else
    match shortEscape? letter with
    | some shown => return [shown]
    | none => refuse

/-- The text up to a double quote, or to three of them over several lines. -/
def basicText (multiline : Bool) : Nat → Parse (List Char)
  | 0 => refuse
  | fuel + 1 => do
      if ← accept (if multiline then ['"', '"', '"'] else ['"']) then return []
      else
        let letter ← next
        if letter == '\\' then
          let shown ← escape multiline
          return shown ++ (← basicText multiline fuel)
        else if isControl letter && !(multiline && letter == '\n') then refuse
        else return letter :: (← basicText multiline fuel)

/-- The text up to three apostrophes. -/
def literalLines : Nat → Parse (List Char)
  | 0 => refuse
  | fuel + 1 => do
      if ← accept ['\'', '\'', '\''] then return []
      else
        let letter ← next
        if isControl letter && letter != '\n' then refuse
        else return letter :: (← literalLines fuel)

/-- The text up to an apostrophe, without any escapes. -/
def literalText : Parse (List Char) := do
  let text ← takeWhile (· != '\'')
  expect '\''
  if text.any isControl then refuse else return text

/-- Up to two further quotes belong to a text over several lines. -/
def extraQuotes (mark : Char) : Parse (List Char) := do
  if ← accept [mark] then
    if ← accept [mark] then return [mark, mark] else return [mark]
  else return []

/-- A text over several lines, after its opening quotes. -/
def multilineText (mark : Char) : Parse (List Char) := do
  let _ ← accept ['\n']
  let fuel := (← size) + 1
  let body ← if mark == '"' then basicText true fuel else literalLines fuel
  return body ++ (← extraQuotes mark)

/-- A text within one line, after its opening quote. -/
def lineText (mark : Char) : Parse (List Char) := do
  if mark == '"' then basicText false ((← size) + 1) else literalText

/-- A text in any kind of quotes, after the first of them. -/
def quotedText (mark : Char) : Parse String := do
  let letters ← if ← accept [mark, mark] then multilineText mark else lineText mark
  return String.ofList letters

/-! ## Keys -/

/-- One part of a key. -/
def keyPart : Parse String := do
  match ← peek with
  | some '"' =>
      let _ ← next
      return String.ofList (← lineText '"')
  | some '\'' =>
      let _ ← next
      return String.ofList (← lineText '\'')
  | _ =>
      let part ← takeWhile isBareKey
      if part.isEmpty then refuse else return String.ofList part

/-- The parts of a key after the first. -/
def moreKeyParts : Nat → Parse (List String)
  | 0 => refuse
  | fuel + 1 => do
      skipWhile isLineSpace
      if ← accept ['.'] then
        skipWhile isLineSpace
        let part ← keyPart
        return part :: (← moreKeyParts fuel)
      else return []

/-- A key, whose parts are divided by points. -/
def key : Parse (List String) := do
  let part ← keyPart
  return part :: (← moreKeyParts ((← size) + 1))

/-! ## Numbers, dates and times -/

/-- Digits with single underscores between them, without the underscores. -/
def digitRun (isDigit : Char → Bool) : List Char → List Char × List Char
  | [] => ([], [])
  | letter :: rest =>
      if isDigit letter then
        let (digits, rest) := moreDigits rest
        (letter :: digits, rest)
      else ([], letter :: rest)
where
  /-- The digits after the first. -/
  moreDigits : List Char → List Char × List Char
    | '_' :: letter :: rest =>
        if isDigit letter then
          let (digits, rest) := moreDigits rest
          (letter :: digits, rest)
        else ([], '_' :: letter :: rest)
    | letter :: rest =>
        if isDigit letter then
          let (digits, rest) := moreDigits rest
          (letter :: digits, rest)
        else ([], letter :: rest)
    | [] => ([], [])

/-- A whole number in another base, after its zero. -/
def prefixedInteger? (letters : List Char) : Option (Data × List Char) :=
  let read (base : Nat) (isDigit : Char → Bool) (rest : List Char) : Option (Data × List Char) :=
    let (digits, rest) := digitRun isDigit rest
    if digits.isEmpty then none else some (.int (numeral base digits), rest)
  match letters with
  | 'x' :: rest => read 16 isHexDigit rest
  | 'b' :: rest => read 2 (fun c => c == '0' || c == '1') rest
  | 'o' :: rest => read 8 (fun c => '0' ≤ c && c ≤ '7') rest
  | _ => none

/-- The digits before the point. -/
def wholePart? (letters : List Char) : Option (List Char × List Char) :=
  match letters with
  | '0' :: rest => some (['0'], rest)
  | _ =>
      let (digits, rest) := digitRun isDecimal letters
      if digits.isEmpty then none else some (digits, rest)

/-- The digits after the point, if there are any. -/
def fractionPart (letters : List Char) : List Char × List Char :=
  match letters with
  | '.' :: rest =>
      let (digits, after) := digitRun isDecimal rest
      if digits.isEmpty then ([], letters) else (digits, after)
  | _ => ([], letters)

/-- The exponent, if there is one. -/
def exponentPart (letters : List Char) : Option Int × List Char :=
  match letters with
  | mark :: rest =>
      if mark == 'e' || mark == 'E' then
        let (sign, rest) : Int × List Char := match rest with
          | '-' :: rest => (-1, rest)
          | '+' :: rest => (1, rest)
          | rest => (1, rest)
        let (digits, after) := digitRun isDecimal rest
        if digits.isEmpty then (none, letters) else (some (sign * numeral 10 digits), after)
      else (none, letters)
  | [] => (none, [])

/-- A number that was read as a decimal; one that is too large counts as infinite. -/
def decimalData (number : Decimal) : Data :=
  if number.wholeness = .tooLarge then .nonFinite else .real number

/-- The greatest number of digits of a whole number in base ten. -/
def digitLimit : Nat := 4300

/-- Whether there is a minus sign, and what follows the sign. -/
def signPart : List Char → Bool × List Char
  | '-' :: rest => (true, rest)
  | '+' :: rest => (false, rest)
  | letters => (false, letters)

/-- A number in base ten; none is given if it has too many digits. -/
def decimalNumber? (letters : List Char) : Option (Option Data × List Char) :=
  let (negative, unsigned) := signPart letters
  match wholePart? unsigned with
  | none => none
  | some (whole, rest) =>
      let (fraction, rest) := fractionPart rest
      let (exponent, rest) := exponentPart rest
      if fraction.isEmpty && exponent.isNone then
        let size : Int := numeral 10 whole
        if whole.length > digitLimit then some (none, rest)
        else some (some (.int (if negative then -size else size)), rest)
      else
        let digits := numeral 10 (whole ++ fraction)
        some (decimalData ⟨negative, digits, exponent.getD 0 - fraction.length⟩, rest)

/-- A number; none is given if it has too many digits. -/
def number? (letters : List Char) : Option (Option Data × List Char) :=
  match letters with
  | '0' :: rest =>
      match prefixedInteger? rest with
      | some (value, rest) => some (value, rest)
      | none => decimalNumber? letters
  | _ => decimalNumber? letters

/-- An infinite number, or none at all. -/
def specialNumber? (letters : List Char) : Option (Data × List Char) :=
  let unsigned := (signPart letters).2
  if ['i', 'n', 'f'].isPrefixOf unsigned || ['n', 'a', 'n'].isPrefixOf unsigned then
    some (.nonFinite, unsigned.drop 3)
  else none

/-- A number of exactly `count` digits within bounds. -/
def fixedNumber? (count low high : Nat) (letters : List Char) : Option (Nat × List Char) :=
  let digits := letters.take count
  let value := numeral 10 digits
  if digits.length = count && digits.all isDecimal && low ≤ value && value ≤ high then
    some (value, letters.drop count)
  else none

/-- What follows a given character. -/
def after? (letter : Char) : List Char → Option (List Char)
  | first :: rest => if first == letter then some rest else none
  | [] => none

/-- What follows a time of day. -/
def afterTime? (letters : List Char) : Option (List Char) := do
  let (_, rest) ← fixedNumber? 2 0 23 letters
  let (_, rest) ← fixedNumber? 2 0 59 (← after? ':' rest)
  let (_, rest) ← fixedNumber? 2 0 59 (← after? ':' rest)
  match rest with
  | '.' :: fraction =>
      if fraction.head?.any isDecimal then return fraction.dropWhile isDecimal else return rest
  | _ => return rest

/-- What follows the offset of a time, if there is one. -/
def afterOffset (letters : List Char) : List Char :=
  match letters with
  | sign :: rest =>
      if sign == 'Z' || sign == 'z' then rest
      else if sign == '+' || sign == '-' then
        let offset : Option (List Char) := do
          let (_, rest) ← fixedNumber? 2 0 23 rest
          let (_, rest) ← fixedNumber? 2 0 59 (← after? ':' rest)
          return rest
        offset.getD letters
      else letters
  | [] => []

/-- The number of days of a month. -/
def daysIn (year month : Nat) : Nat :=
  if month = 2 then
    if (year % 4 = 0 ∧ year % 100 ≠ 0) ∨ year % 400 = 0 then 29 else 28
  else if month = 4 ∨ month = 6 ∨ month = 9 ∨ month = 11 then 30
  else 31

/-- What follows a date, perhaps with a time, and whether there is such a day. -/
def date? (letters : List Char) : Option (Bool × List Char) := do
  let (year, rest) ← fixedNumber? 4 0 9999 letters
  let (month, rest) ← fixedNumber? 2 1 12 (← after? '-' rest)
  let (day, rest) ← fixedNumber? 2 1 31 (← after? '-' rest)
  let exists_ := 1 ≤ year && day ≤ daysIn year month
  match rest with
  | mark :: time =>
      if mark == 'T' || mark == 't' || mark == ' ' then
        match afterTime? time with
        | some after => return (exists_, afterOffset after)
        | none => return (exists_, rest)
      else return (exists_, rest)
  | [] => return (exists_, [])

/-- A value that is neither a text nor a truth value nor in brackets. -/
def scalar : Parse Data := do
  let letters ← get
  match date? letters with
  | some (valid, rest) =>
      set rest
      if valid then return .moment else refuse
  | none =>
      match afterTime? letters with
      | some rest =>
          set rest
          return .moment
      | none =>
          match number? letters with
          | some (some value, rest) =>
              set rest
              return value
          | some (none, _) => throw .numberTooLong
          | none =>
              match specialNumber? letters with
              | some (value, rest) =>
                  set rest
                  return value
              | none => refuse

/-! ## Tables -/

/-- Change the fields of the table at the end of a path, which is made if need be.  A path leads
into the last table of an array of tables only if `throughLists` is true. -/
def changeTable (throughLists : Bool) (path : List String)
    (change : List (String × Data) → Option (List (String × Data)))
    (fields : List (String × Data)) : Option (List (String × Data)) :=
  match path with
  | [] => change fields
  | name :: path =>
      match (fields.lookup name).getD (.object []) with
      | .object inner => do
          let inner ← changeTable throughLists path change inner
          return Data.putField fields name (.object inner)
      | .list items =>
          match throughLists, items.getLast? with
          | true, some (.object inner) => do
              let inner ← changeTable throughLists path change inner
              return Data.putField fields name (.list (items.dropLast ++ [.object inner]))
          | _, _ => none
      | _ => none

/-- Give a new field a value. -/
def addField (name : String) (value : Data) (fields : List (String × Data)) :
    Option (List (String × Data)) :=
  if (fields.lookup name).isSome then none else some (fields ++ [(name, value)])

/-- Add an empty table to an array of tables. -/
def addToList (name : String) (fields : List (String × Data)) : Option (List (String × Data)) :=
  match fields.lookup name with
  | none => some (fields ++ [(name, .list [.object []])])
  | some (.list items) => some (Data.putField fields name (.list (items ++ [.object []])))
  | some _ => none

/-- Whether a value was written in brackets. -/
def isContainer : Data → Bool
  | .list _ | .object _ => true
  | _ => false

/-- Whether one of the frozen paths leads to a path or to something above it. -/
def isFrozen (frozen : List (List String)) (path : List String) : Bool :=
  frozen.any fun place => place.isPrefixOf path

/-- A key without its last part, and that part. -/
def splitLast (path : List String) : List String × String :=
  (path.dropLast, path.getLast?.getD "")

/-- How deep values may nest, where an array counts twice and an inline table three times. -/
def nestingLimit : Nat := 988

/-- What is left of a depth after a part that counts as `cost`. -/
def deeper (depth cost : Nat) : Parse Nat :=
  if cost ≤ depth then return depth - cost else throw .tooDeep

mutual

/-- A value. -/
def value (fuel depth : Nat) : Parse Data :=
  match fuel with
  | 0 => refuse
  | fuel + 1 => do
      match ← peek with
      | some '"' =>
          let _ ← next
          return .text (← quotedText '"')
      | some '\'' =>
          let _ ← next
          return .text (← quotedText '\'')
      | some '[' =>
          let depth ← deeper depth 2
          let _ ← next
          skipSpaceAndComments (← size)
          if ← accept [']'] then return .list [] else return .list (← listItems fuel depth)
      | some '\x7b' =>
          let depth ← deeper depth 3
          let _ ← next
          skipWhile isLineSpace
          if ← accept ['\x7d'] then return .object []
          else return .object (← inlineFields fuel depth [] [])
      | _ =>
          if ← accept ['t', 'r', 'u', 'e'] then return .bool true
          else if ← accept ['f', 'a', 'l', 's', 'e'] then return .bool false
          else scalar

/-- The items of an array up to its closing bracket; a comma may follow the last one. -/
def listItems (fuel depth : Nat) : Parse (List Data) :=
  match fuel with
  | 0 => refuse
  | fuel + 1 => do
      let item ← value fuel depth
      skipSpaceAndComments (← size)
      if ← accept [']'] then return [item]
      else
        expect ','
        skipSpaceAndComments (← size)
        if ← accept [']'] then return [item] else return item :: (← listItems fuel depth)

/-- The fields of an inline table up to its closing brace, added to those read before. -/
def inlineFields (fuel depth : Nat) (known : List (String × Data)) (frozen : List (List String)) :
    Parse (List (String × Data)) :=
  match fuel with
  | 0 => refuse
  | fuel + 1 => do
      let path ← key
      expect '='
      skipWhile isLineSpace
      let item ← value fuel depth
      if isFrozen frozen path then refuse
      let (parent, name) := splitLast path
      match changeTable false parent (addField name item) known with
      | none => refuse
      | some known =>
          skipWhile isLineSpace
          if ← accept ['\x7d'] then return known
          else
            expect ','
            skipWhile isLineSpace
            inlineFields fuel depth known (if isContainer item then path :: frozen else frozen)

end

/-! ## Documents -/

/-- What was read of a document. -/
structure Document where
  /-- The fields of the whole document. -/
  fields : List (String × Data) := []
  /-- The table that takes the next fields. -/
  header : List String := []
  /-- The tables that were declared. -/
  declared : List (List String) := []
  /-- The tables that dotted keys made since the last header. -/
  pending : List (List String) := []
  /-- What was written inline. -/
  frozen : List (List String) := []

namespace Document

/-- A header ends the section of the one before. -/
def endSection (document : Document) : Document :=
  { document with declared := document.pending ++ document.declared, pending := [] }

/-- Declare a table. -/
def declareTable? (document : Document) (path : List String) : Option Document :=
  if document.declared.contains path || isFrozen document.frozen path then none
  else do
    let fields ← changeTable true path some document.fields
    return { document with fields, header := path, declared := path :: document.declared }

/-- Add a table to an array of tables; what was known of an earlier member does not bind it. -/
def declareItem? (document : Document) (path : List String) : Option Document :=
  if isFrozen document.frozen path then none
  else do
    let free (places : List (List String)) := places.filter fun place => !path.isPrefixOf place
    let (parent, name) := splitLast path
    let fields ← changeTable true parent (addToList name) document.fields
    return {
      document with
      fields
      header := path
      declared := path :: free document.declared
      frozen := free document.frozen }

/-- The tables that a dotted key leads through. -/
def throughTables (header path : List String) : List (List String) :=
  (List.range (path.length - 1)).map fun index => header ++ path.take (index + 1)

/-- Give a key of the current table a value. -/
def assign? (document : Document) (path : List String) (item : Data) : Option Document :=
  let through := throughTables document.header path
  let (parent, name) := splitLast (document.header ++ path)
  if through.any document.declared.contains || isFrozen document.frozen parent then none
  else do
    let fields ← changeTable true parent (addField name item) document.fields
    return {
      document with
      fields
      pending := through ++ document.pending
      frozen :=
        if isContainer item then (document.header ++ path) :: document.frozen
        else document.frozen }

end Document

/-- Lift a step on the document. -/
def require (document : Option Document) : Parse Document :=
  match document with
  | some document => return document
  | none => refuse

/-- One statement: a header or an assignment. -/
def statement (document : Document) : Parse Document := do
  if ← accept ['['] then
    let document := document.endSection
    let isItem ← accept ['[']
    skipWhile isLineSpace
    let path ← key
    let document ← require
      (if isItem then document.declareItem? path else document.declareTable? path)
    if ← accept (if isItem then [']', ']'] else [']']) then return document else refuse
  else
    let path ← key
    expect '='
    skipWhile isLineSpace
    let item ← value ((← size) + 1) nestingLimit
    require (document.assign? path item)

/-- The statements of a document, each on a line of its own. -/
def statements (fuel : Nat) (document : Document) : Parse Document :=
  match fuel with
  | 0 => refuse
  | fuel + 1 => do
      skipWhile isLineSpace
      match ← peek with
      | none => return document
      | some '\n' =>
          let _ ← next
          statements fuel document
      | some letter =>
          let document ← if letter == '#' then pure document else statement document
          skipWhile isLineSpace
          skipComment
          match ← peek with
          | none => return document
          | some _ =>
              expect '\n'
              statements fuel document

/-- A carriage return before a line feed does not count. -/
def dropReturns : List Char → List Char
  | [] => []
  | '\r' :: '\n' :: rest => '\n' :: dropReturns rest
  | letter :: rest => letter :: dropReturns rest

/-- Read a document. -/
def parse (text : String) : Except TomlFault Data := do
  let letters := dropReturns text.toList
  let (document, rest) ← (statements (letters.length + 2) {}).run letters
  if rest.isEmpty then return .object document.fields else throw .malformed

end CallGraph.Toml
