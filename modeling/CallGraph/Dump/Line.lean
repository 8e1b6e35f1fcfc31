import CallGraph.Symbol.Record
import CallGraph.Text.Blank
import CallGraph.Text.Digit

/-!
# Lines of a dump

A line that is not indented opens the block of a symbol: `SYMBOL/ordinal (NAME) @0xADDRESS`.
Symbol and name may hold nearly anything; the symbol ends at the first ordinal from which the
rest of the line can be read, and the name at the first place where an address ends the line.  An
indented line may carry one of six fields and is passed over otherwise.
-/

namespace CallGraph.Dump

open Text

/-- The fields of a block that are read. -/
inductive Label where
  /-- What the symbol denotes. -/
  | type
  /-- Who sees the symbol. -/
  | visibility
  /-- One of the four lists of edges. -/
  | edges (field : EdgeField)
  deriving DecidableEq, Repr

namespace Label

/-- Every label. -/
def all : List Label := .type :: .visibility :: EdgeField.all.map .edges

/-- How a dump writes a label. -/
def text : Label → String
  | .type => "Type"
  | .visibility => "Visibility"
  | .edges .references => "References"
  | .edges .referring => "Referring"
  | .edges .calls => "Calls"
  | .edges .calledBy => "Called by"

/-- The list of edges that a label stands for. -/
def edgeField? : Label → Option EdgeField
  | .edges field => some field
  | .type | .visibility => none

end Label

/-- What opens the block of a symbol. -/
structure Header where
  /-- The symbol as the linker knows it. -/
  symbol : String
  /-- The name shown to people. -/
  name : String
  /-- The address of the compiler's node, in hexadecimal digits. -/
  address : String
  deriving DecidableEq, Repr

/-- What a line of the symbol table section says. -/
inductive Line where
  /-- A block begins. -/
  | header (header : Header)
  /-- A field of the current block. -/
  | field (label : Label) (value : String)
  /-- Something that is not read. -/
  | other
  deriving DecidableEq, Repr

/-- Why a line cannot be read. -/
inductive LineError where
  /-- A line that is not indented is no header. -/
  | malformedHeader (line : String)
  /-- The separator of private keys occurs in a symbol or a name. -/
  | reservedSeparator (symbol name : String)
  deriving DecidableEq, Repr

/-- Whether nothing is left of a line but, at most, its line feed. -/
def atLineEnd : List Char → Bool
  | [] => true
  | ['\n'] => true
  | _ => false

/-- What follows `head`, if a text begins with it. -/
def after? (head : List Char) (letters : List Char) : Option (List Char) :=
  if head.isPrefixOf letters then some (letters.drop head.length) else none

/-- The address that ends a header, after the closing parenthesis of the name. -/
def address? (letters : List Char) : Option (List Char) := do
  let rest ← after? [')', ' ', '@', '0', 'x'] letters
  let digits := rest.takeWhile isHexDigit
  if !digits.isEmpty && atLineEnd (rest.dropWhile isHexDigit) then some digits else none

/-- The name and the address, where `name` holds what was read of the name backwards. -/
def nameAndAddress? (name : List Char) : List Char → Option (List Char × List Char)
  | [] => none
  | letter :: rest =>
      match if name.isEmpty then none else address? (letter :: rest) with
      | some digits => some (name.reverse, digits)
      | none => if letter == '\n' then none else nameAndAddress? (letter :: name) rest

/-- What follows the ordinal of a header up to the name, if a text begins with an ordinal. -/
def afterOrdinal? (letters : List Char) : Option (List Char) := do
  let rest ← after? ['/'] letters
  if rest.head?.any isDigit then after? [' ', '('] (rest.dropWhile isDigit) else none

/-- The header, where `symbol` holds what was read of the symbol backwards. -/
def headerFrom? (symbol : List Char) : List Char → Option Header
  | [] => none
  | letter :: rest =>
      let found :=
        if symbol.isEmpty then none
        else (afterOrdinal? (letter :: rest)).bind (nameAndAddress? [])
      match found with
      | some (name, digits) =>
          some ⟨String.ofList symbol.reverse, String.ofList name, String.ofList digits⟩
      | none => if letter == '\n' then none else headerFrom? (letter :: symbol) rest

/-- The header that a line holds. -/
def header? (line : String) : Option Header :=
  headerFrom? [] line.toList

/-- The rest of a line after its leading blanks, if no line feed but a final one is left. -/
def value? (letters : List Char) : Option (List Char) :=
  let rest := letters.dropWhile isBlank
  let value := rest.takeWhile (· != '\n')
  if atLineEnd (rest.dropWhile (· != '\n')) then some value else none

/-- The field that an indented line holds. -/
def field? (line : String) : Option (Label × String) := do
  let rest ← after? [' ', ' '] line.toList
  let label ← Label.all.find? fun label => (label.text.toList ++ [':']).isPrefixOf rest
  let value ← value? (rest.drop (label.text.length + 1))
  return (label, String.ofList value)

/-- Read a line of the symbol table section. -/
def readLine (line : String) : Except LineError Line :=
  if line.toList.head?.any isBlank then
    match field? line with
    | some (label, value) => .ok (.field label value)
    | none => .ok .other
  else
    match header? line with
    | none => .error (.malformedHeader line)
    | some header =>
        if Key.isPrivate header.symbol || Key.isPrivate header.name then
          .error (.reservedSeparator header.symbol header.name)
        else .ok (.header header)

end CallGraph.Dump
