import CallGraph.Data.Schema
import CallGraph.Symbol.Record

/-!
# Records as data

A record as the fields of an object, and the way back.  The kind of a symbol is called its type;
where no type is given it may be called its kind.  Fields that are not given are empty.
-/

namespace CallGraph.Record

open Schema

/-- The name under which the kind of a symbol is given. -/
def kindField (fields : List (String × Data)) : String :=
  if (fields.lookup "type").isNone && (fields.lookup "kind").isSome then "kind" else "type"

/-- Take a record from the fields of an object. -/
def ofFields (fields : List (String × Data)) : Checked Record :=
  Record.mk <$> optional fields "name" text ""
    <*> optional fields (kindField fields) (wordOrNull Kind.ofLabel?) none
    <*> optional fields "visibility" (wordOrNull Visibility.ofLabel?) none
    <*> optional fields "filename" (list text) []
    <*> optional fields "references" (list text) []
    <*> optional fields "referring" (list text) []
    <*> optional fields "calls" (list text) []
    <*> optional fields "called_by" (list text) []

/-- The name of the model of a record. -/
def modelName : String := "SymbolRecord"

/-- Take a record from an object. -/
def ofData (data : Data) : Except Mismatch Record :=
  ((fieldsOf data).andThen ofFields).toExcept modelName

/-- A list of texts as data. -/
def textsData (texts : List String) : Data := .list (texts.map .text)

/-- A text as data, nothing if there is none. -/
def textData? : Option String → Data
  | some value => .text value
  | none => .null

/-- A record as the fields of an object. -/
def toFields (record : Record) : List (String × Data) :=
  [("name", .text record.name),
   ("type", textData? (record.kind.map Kind.label)),
   ("visibility", textData? (record.visibility.map Visibility.label)),
   ("filename", textsData record.origins),
   ("references", textsData record.references),
   ("referring", textsData record.referring),
   ("calls", textsData record.calls),
   ("called_by", textsData record.calledBy)]

/-- A record as an object. -/
def toData (record : Record) : Data := .object record.toFields

end CallGraph.Record
