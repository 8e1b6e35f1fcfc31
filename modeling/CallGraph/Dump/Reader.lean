import CallGraph.Dump.Annotation
import CallGraph.Dump.Flags
import CallGraph.Dump.Line
import CallGraph.Dump.Section
import CallGraph.Journal
import CallGraph.Table.Basic

/-!
# Reading dumps into a table

A reader takes the lines of one compilation unit into a table that all units share.  A header
opens a record under the private key of its symbol; a public visibility moves the record to the
bare symbol and merges it with an earlier declaration.  When the next block opens, a record that
got no edge is dropped.

A line that contradicts the format ends the reading.  The reader then stands as that line left
it, with all that was read before.
-/

namespace CallGraph.Dump

/-- A reader of one compilation unit. -/
structure Reader where
  /-- The table that is filled. -/
  table : Table
  /-- The compilation unit. -/
  origin : Origin
  /-- The key of the current block, empty before the first one. -/
  current : Key := ""
  /-- What was reported so far, oldest first. -/
  journal : List Event := []

/-- Why a dump cannot be read. -/
inductive DumpError where
  /-- A line cannot be read. -/
  | line (error : LineError)
  /-- A visibility contradicts itself. -/
  | flags (error : FlagsError)
  /-- A symbol is declared again under another name, or by another unit. -/
  | redeclared (key : Key) (name stored : String) (origins : List Origin)
  /-- A type is neither that of a function nor that of a variable. -/
  | unknownType (value : String) (key : Key)
  /-- The type of a symbol changes. -/
  | typeChanged (key : Key) (stored found : Kind)
  /-- A public symbol turns private. -/
  | becamePrivate (key : Key)
  /-- Two declarations of a symbol disagree. -/
  | conflict (error : TableError)
  deriving DecidableEq, Repr

namespace LineError

open Text in
/-- What is said of a line that cannot be read. -/
def message : LineError → String
  | malformedHeader line => s!"Malformed symbol header line: {quote line}"
  | reservedSeparator symbol name =>
      s!"Symbol {quote symbol} or name {quote name} contains the reserved '@' separator"

end LineError

namespace DumpError

open Text in
/-- What is said of a dump that cannot be read. -/
def message : DumpError → String
  | line error => error.message
  | flags error => error.message
  | redeclared key name stored origins =>
      s!"Symbol {quote key} seen again with name {quote name} " ++
        s!"(stored: {quote stored}, origins {quoteList origins})"
  | unknownType value key => s!"Type {quote value} of {quote key} is neither function nor variable"
  | typeChanged key stored found =>
      s!"Type of {quote key} changed from {quote stored.label} to {quote found.label}"
  | becamePrivate key => s!"Visibility of public symbol {quote key} changed to private"
  | conflict error => error.message

end DumpError

namespace Reader

/-- A step of a reader, which may fail and says where it leaves the reader. -/
abbrev Action := EStateM DumpError Reader

/-- Report an event. -/
def report (event : Event) : Action Unit :=
  modify fun reader => { reader with journal := reader.journal ++ [event] }

/-- Work on the table. -/
def onTable {α : Type} (action : Table.Action α) : Action α := fun reader =>
  match action reader.table with
  | .ok result table => .ok result { reader with table }
  | .error error table => .error (.conflict error) { reader with table }

/-- Change the record of the current block. -/
def modifyCurrent (change : Record → Record) : Action Unit :=
  modify fun reader => { reader with table := reader.table.modify reader.current change }

/-- Drop the record of the current block if it got no edge. -/
def dropSpurious : Action Unit := do
  let reader ← get
  if reader.table.isSpurious reader.current then
    set { reader with table := reader.table.dropSpurious reader.current }
    report (.spuriousDropped reader.current)

/-- Open the block of a symbol. -/
def openBlock (header : Header) : Action Unit := do
  let reader ← get
  let key := Key.inOrigin header.symbol reader.origin
  if !reader.current.isEmpty && reader.current != header.symbol && reader.current != key then
    dropSpurious
  match (← get).table.get? key with
  | some stored =>
      if stored.name ≠ header.name ∨ reader.origin ∉ stored.origins then
        throw (.redeclared key header.name stored.name stored.origins)
  | none => pure ()
  modify fun reader =>
    { reader with
      table := (reader.table.ensure key).modify key fun record =>
        { record with name := header.name }.addOrigins [reader.origin]
      current := key }

/-- The kind that a type stands for. -/
def kindOf? (value : String) : Option Kind :=
  if Text.contains value "function" then some .function
  else if Text.contains value "variable" then some .object
  else none

/-- Take the type of the current symbol. -/
def readType (value : String) : Action Unit := do
  let reader ← get
  match kindOf? value with
  | none => throw (.unknownType value reader.current)
  | some kind =>
      match (reader.table.get? reader.current).bind Record.kind with
      | some stored => if stored ≠ kind then throw (.typeChanged reader.current stored kind)
      | none => pure ()
      modifyCurrent fun record => { record with kind := some kind }

/-- The current symbol is public: its record goes to the bare symbol. -/
def publish (external : Bool) : Action Unit := do
  modifyCurrent fun record =>
    { record with
      origins := if external then [] else record.origins
      visibility := some .exported }
  let reader ← get
  let target := Key.bare reader.current
  let joined := reader.table.joins target reader.current
  onTable (Table.merge target reader.current)
  if joined then report (.merged target reader.current)
  modify fun reader => { reader with current := target }

/-- Take the visibility of the current symbol. -/
def readVisibility (value : String) : Action Unit := do
  match Flags.read value with
  | .error error => throw (.flags error)
  | .ok flags =>
      let reader ← get
      let stored := (reader.table.get? reader.current).bind Record.visibility
      if flags.exported then publish flags.external
      else if flags.artificial && stored.isNone then
        report (.artificialDropped reader.current)
        modify fun reader => { reader with table := reader.table.erase reader.current }
      else if stored = some .exported then throw (.becamePrivate reader.current)
      else modifyCurrent fun record => { record with visibility := some .fileLocal }

/-- Take a field of the current block. -/
def readField (label : Label) (value : String) : Action Unit :=
  match label with
  | .type => readType value
  | .visibility => readVisibility value
  | .edges field => modifyCurrent fun record => record.addEdges field (edgeTokens value)

/-- Take one line.  Fields outside a block, or in one whose record was dropped, are passed over. -/
def feed (line : String) : Action Unit := do
  match readLine line with
  | .error error => throw (.line error)
  | .ok .other => pure ()
  | .ok (.header header) => openBlock header
  | .ok (.field label value) =>
      let reader ← get
      if reader.table.contains reader.current then readField label value

/-- End the unit: its last record is dropped if it got no edge. -/
def finish : Action Unit := do
  let reader ← get
  if !reader.current.isEmpty then dropSpurious

/-- Take the lines of a symbol table section and end the unit. -/
def readLines (lines : List String) : Action Unit := do
  lines.forM feed
  finish

end Reader

/-- Read the lines of a symbol table section into a table. -/
def readLinesInto (table : Table) (origin : Origin) (lines : List String) :
    EStateM.Result DumpError Reader Unit :=
  Reader.readLines lines { table, origin }

/-- Read the text of a dump into a table. -/
def readTextInto (table : Table) (origin : Origin) (text : String) :
    EStateM.Result DumpError Reader Unit :=
  readLinesInto table origin (symbolSection (Text.splitLines text))

end CallGraph.Dump
