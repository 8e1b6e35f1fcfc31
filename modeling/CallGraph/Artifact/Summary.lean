import CallGraph.Finding
import CallGraph.Json.Printer
import CallGraph.Symbol.Schema
import CallGraph.Table.Summary

/-!
# The summary artifact

A single JSON object with the summary of a table and the version of the schema.
-/

namespace CallGraph

namespace Summary

/-- A count as data. -/
def countData (count : Nat) : Data := .int count

/-- Counts by key as data. -/
def countsData (counts : List (Key × Nat)) : Data :=
  .object (counts.map fun entry => (entry.1, countData entry.2))

/-- A summary as data. -/
def toData (summary : Summary) : Data :=
  .object
    [("schema_version", .int schemaVersion),
     ("symbol_count", countData summary.symbolCount),
     ("function_count", countData summary.functionCount),
     ("variable_count", countData summary.variableCount),
     ("public_count", countData summary.publicCount),
     ("private_count", countData summary.privateCount),
     ("call_edge_count", countData summary.callEdgeCount),
     ("reference_edge_count", countData summary.referenceEdgeCount),
     ("cycles", .list (summary.cycles.map Record.textsData)),
     ("fan_in", countsData summary.fanIn),
     ("fan_out", countsData summary.fanOut),
     ("top_functions", Record.textsData summary.topFunctions)]

end Summary

/-- A summary as it is read back, where counts may be any whole numbers. -/
structure SummaryArtifact where
  /-- The version of the schema. -/
  version : Int
  /-- The number of records. -/
  symbolCount : Int
  /-- The number of functions. -/
  functionCount : Int
  /-- The number of variables. -/
  variableCount : Int
  /-- The number of public symbols. -/
  publicCount : Int
  /-- The number of symbols that are not public. -/
  privateCount : Int
  /-- The number of calls. -/
  callEdgeCount : Int
  /-- The number of references. -/
  referenceEdgeCount : Int
  /-- The cyclic components. -/
  cycles : List (List Key)
  /-- How often functions are called. -/
  fanIn : List (Key × Int)
  /-- How many calls functions make. -/
  fanOut : List (Key × Int)
  /-- The functions that are called most. -/
  topFunctions : List Key

namespace SummaryArtifact

open Schema

/-- The name of the model of a summary. -/
def modelName : String := "GraphSummary"

/-- Take a summary from the fields of an object. -/
def ofFields (fields : List (String × Data)) : Checked SummaryArtifact :=
  SummaryArtifact.mk <$> optional fields "schema_version" integer schemaVersion
    <*> required fields "symbol_count" integer
    <*> required fields "function_count" integer
    <*> required fields "variable_count" integer
    <*> required fields "public_count" integer
    <*> required fields "private_count" integer
    <*> required fields "call_edge_count" integer
    <*> required fields "reference_edge_count" integer
    <*> optional fields "cycles" (list (list text)) []
    <*> optional fields "fan_in" (dict integer) []
    <*> optional fields "fan_out" (dict integer) []
    <*> optional fields "top_functions" (list text) []

end SummaryArtifact

/-- The text of the summary artifact. -/
def Table.summaryText (table : Table) : String :=
  Json.document table.summary.toData

end CallGraph
