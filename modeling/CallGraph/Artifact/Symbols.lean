import CallGraph.Finding
import CallGraph.Json.Printer
import CallGraph.Symbol.Schema
import CallGraph.Table.Format

/-!
# The symbols artifact

One JSON object a line for every symbol, in increasing order of the keys: the record, its key and
the version of the schema.
-/

namespace CallGraph

/-- A line of the symbols artifact. -/
structure SymbolArtifact where
  /-- The record. -/
  record : Record
  /-- The version of the schema. -/
  version : Int := schemaVersion
  /-- The key of the record. -/
  key : Key

namespace SymbolArtifact

open Schema

/-- The name of the model of a line. -/
def modelName : String := "SymbolArtifact"

/-- A line as data. -/
def toData (symbol : SymbolArtifact) : Data :=
  .object (symbol.record.toFields ++
    [("schema_version", .int symbol.version), ("key", .text symbol.key)])

/-- Take a line from the fields of an object. -/
def ofFields (fields : List (String × Data)) : Checked SymbolArtifact :=
  SymbolArtifact.mk <$> Record.ofFields fields
    <*> optional fields "schema_version" integer schemaVersion
    <*> required fields "key" text

/-- Take a line from an object. -/
def ofData (data : Data) : Except Mismatch SymbolArtifact :=
  ((fieldsOf data).andThen ofFields).toExcept modelName

end SymbolArtifact

/-- The lines of the symbols artifact. -/
def Table.symbolArtifacts (table : Table) : List SymbolArtifact :=
  table.sortedEntries.map fun entry => { record := entry.2, key := entry.1 }

/-- The text of the symbols artifact. -/
def Table.symbolsText (table : Table) : String :=
  Json.lines (table.symbolArtifacts.map SymbolArtifact.toData)

end CallGraph
