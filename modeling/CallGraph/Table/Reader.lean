import CallGraph.Finding
import CallGraph.Symbol.Schema
import CallGraph.Table.Format
import CallGraph.Text.Lines

/-!
# Reading a persisted table

Trailing blanks, blank lines and comment lines do not count.  A line that starts with no blank and
ends with a colon opens a block; a line indented by two spaces is a field.  The label of a field
ends at the last colon of its first word.  A list stands in brackets, with a comma and a space
between its items.

Everything that is wrong is found; the table is read only if nothing is.
-/

namespace CallGraph

/-- What was read of a block. -/
structure Block where
  /-- The line of the key. -/
  line : Nat
  /-- The fields with a single text. -/
  scalars : List (ScalarField × String) := []
  /-- The fields with a list. -/
  lists : List (ListField × List String) := []

namespace Block

/-- Whether a field was read. -/
def has (block : Block) : BlockField → Bool
  | .scalar field => block.scalars.any fun entry => entry.1 == field
  | .items field => block.lists.any fun entry => entry.1 == field

/-- The text of a field. -/
def scalar? (block : Block) (field : ScalarField) : Option String := block.scalars.lookup field

/-- The list of a field, empty if it was not read. -/
def items (block : Block) (field : ListField) : List String := (block.lists.lookup field).getD []

/-- Take the text of a field. -/
def putScalar (block : Block) (field : ScalarField) (value : String) : Block :=
  { block with scalars := block.scalars ++ [(field, value)] }

/-- Take the list of a field. -/
def putItems (block : Block) (field : ListField) (values : List String) : Block :=
  { block with lists := block.lists ++ [(field, values)] }

/-- The labels of the mandatory fields that were not read. -/
def missing (block : Block) : List String :=
  (BlockField.mandatory.filter fun field => !block.has field).map BlockField.label

/-- A field with one of several words, or nothing if it was not read. -/
def word {α : Type} (block : Block) (field : ScalarField) (ofWord? : String → Option α) :
    Checked (Option α) :=
  match block.scalar? field with
  | none => .fine none
  | some value => (Schema.wordOrNull ofWord? (.text value)).within field.label

/-- The record of a block that has all mandatory fields. -/
def toRecord (block : Block) : Checked Record :=
  (fun kind visibility =>
    { name := (block.scalar? .name).getD ""
      kind
      visibility
      origins := block.items .origins
      references := block.items (.edges .references)
      referring := block.items (.edges .referring)
      calls := block.items (.edges .calls)
      calledBy := block.items (.edges .calledBy) : Record }) <$>
    block.word .type Kind.ofLabel? <*> block.word .visibility Visibility.ofLabel?

end Block

namespace TableText

open Text

/-- The key of a line that opens a block. -/
def keyLine? (letters : List Char) : Option Key :=
  match letters with
  | [] => none
  | first :: rest =>
      match rest.getLast? with
      | some ':' =>
          if isBlank first || rest.dropLast.contains '\n' then none
          else some (String.ofList (first :: rest.dropLast))
      | _ => none

/-- What stands before and after the last colon of a word. -/
def splitAtLastColon? (word : List Char) : Option (List Char × List Char) :=
  match word.reverse.dropWhile (· != ':') with
  | _ :: before =>
      if before.isEmpty then none
      else some (before.reverse, (word.reverse.takeWhile (· != ':')).reverse)
  | [] => none

/-- The label and the value of a field line. -/
def fieldLine? (letters : List Char) : Option (String × String) :=
  match letters with
  | ' ' :: ' ' :: body => do
      let (label, start) ← splitAtLastColon? (body.takeWhile fun c => !isBlank c)
      let value := (start ++ body.dropWhile fun c => !isBlank c).dropWhile isBlank
      if value.contains '\n' then none
      else some (String.ofList label, String.ofList value)
  | _ => none

/-- Cut at every comma that a space follows; `item` holds the current item backwards. -/
def splitItemsFrom (item : List Char) : List Char → List (List Char)
  | [] => [item.reverse]
  | ',' :: ' ' :: rest => item.reverse :: splitItemsFrom [] rest
  | letter :: rest => splitItemsFrom (letter :: item) rest

/-- A text that an item of a list may be. -/
def isItem (letters : List Char) : Bool :=
  !letters.isEmpty && dropAround isBlank letters == letters

/-- The items of a list in brackets. -/
def items? (value : String) : Option (List String) :=
  match value.toList with
  | '[' :: rest =>
      match rest.getLast? with
      | some ']' =>
          let inner := dropAround isBlank rest.dropLast
          if inner.isEmpty then some []
          else
            let items := splitItemsFrom [] inner
            if items.all isItem then some (items.map String.ofList) else none
      | _ => none
  | _ => none

/-- Whether a trimmed line is blank or a comment. -/
def isSkipped (letters : List Char) : Bool :=
  match letters.dropWhile isBlank with
  | [] => true
  | first :: _ => first == '#'

/-- What was read of a table. -/
structure State where
  /-- The file that is read. -/
  path : Option String := none
  /-- The blocks by their keys. -/
  blocks : KeyMap Block := ∅
  /-- The block that takes the next field. -/
  current : Option Key := none
  /-- What was found wrong, oldest first. -/
  findings : List Finding := []

namespace State

/-- Note a problem. -/
def note (state : State) (problem : Problem) (line : Nat) (key : Option Key := none) : State :=
  let finding : Finding :=
    { artifact := "table", problem, path := state.path, line := some line, key }
  { state with findings := state.findings ++ [finding] }

/-- Open the block of a key. -/
def openBlock (state : State) (line : Nat) (key : Key) : State :=
  if state.blocks.contains key then
    { state.note (.symbolTwice key) line (some key) with current := none }
  else { state with blocks := state.blocks.insert key { line }, current := some key }

/-- Change the block of a key. -/
def change (state : State) (key : Key) (change : Block → Block) : State :=
  { state with blocks := state.blocks.modify key change }

/-- Take the value of a field that the block does not have yet. -/
def takeValue (state : State) (line : Nat) (key : Key) (field : BlockField) (value : String) :
    State :=
  match field with
  | .items field =>
      match items? value with
      | some items => state.change key (·.putItems field items)
      | none => state.note (.malformedList field.label value) line (some key)
  | .scalar field =>
      let trimmed := trim value
      if field = .visibility ∧ trimmed.isEmpty then
        state.change key (·.putScalar field Visibility.fileLocal.label)
      else state.change key (·.putScalar field trimmed)

/-- Take a field. -/
def takeField (state : State) (line : Nat) (label value : String) : State :=
  match state.current with
  | none => state.note (.strayField label) line
  | some key =>
      match BlockField.ofLabel? label with
      | none => state.note (.unknownField label) line (some key)
      | some field =>
          if (state.blocks.get? key).any fun block => block.has field then
            state.note (.fieldTwice label) line (some key)
          else state.takeValue line key field value

/-- Take a line. -/
def feed (state : State) (number : Nat) (raw : String) : State :=
  let letters := dropTrailing isBlank raw.toList
  if isSkipped letters then state
  else
    match keyLine? letters with
    | some key => state.openBlock number key
    | none =>
        match fieldLine? letters with
        | some (label, value) => state.takeField number label value
        | none => state.note (.unrecognisedLine (String.ofList letters)) number

/-- Take lines, numbered from `number` on. -/
def feedLines (state : State) (number : Nat) : List String → State
  | [] => state
  | line :: lines => (state.feed number line).feedLines (number + 1) lines

/-- Take the record of a block. -/
def finishBlock (state : State × List (Key × Record)) (entry : Key × Block) :
    State × List (Key × Record) :=
  let (key, block) := entry
  if block.missing.isEmpty then
    match block.toRecord with
    | .fine record => (state.1, state.2 ++ [(key, record)])
    | .faulty faults =>
        (state.1.note (.invalidFields ⟨Record.modelName, faults⟩) block.line (some key), state.2)
  else (state.1.note (.missingFields block.missing) block.line (some key), state.2)

/-- Take the records of all blocks. -/
def finish (state : State) : State × List (Key × Record) :=
  state.blocks.entries.foldl finishBlock (state, [])

end State

end TableText

/-- What reading a persisted table leads to. -/
structure TableReading where
  /-- The table, if nothing was wrong. -/
  table : Option Table
  /-- What was found wrong. -/
  findings : List Finding

namespace Table

/-- Read the lines of a persisted table. -/
def readLines (lines : List String) (path : Option String := none) : TableReading :=
  let (state, records) := (({ path } : TableText.State).feedLines 1 lines).finish
  { table := if state.findings.isEmpty then some (Table.ofRecords records) else none
    findings := state.findings }

/-- Read a persisted table. -/
def read (text : String) (path : Option String := none) : TableReading :=
  readLines (Text.splitLines text) path

end Table

end CallGraph
