import CallGraph.Journal
import CallGraph.Table.Basic

/-!
# Sound tables

A table is sound when every record has a name, a kind and an edge, no list of edges repeats a
member, every edge leads to a record, and that record lists the inverse edge.  `violations` lists
every breach, in table order; a table is sound exactly when the list is empty.
-/

namespace CallGraph

/-- A breach of what is expected of a table. -/
inductive Violation where
  /-- The record has no name. -/
  | unnamed (key : Key)
  /-- The record has no kind. -/
  | untyped (key : Key)
  /-- The record has no edge. -/
  | spurious (key : Key)
  /-- A list of edges repeats a member. -/
  | repeats (key : Key) (field : EdgeField)
  /-- An edge leads to no record. -/
  | dangling (key : Key) (field : EdgeField) (target : Key)
  /-- The target of an edge does not list the inverse edge. -/
  | unanswered (key : Key) (field : EdgeField) (target : Key)
  deriving DecidableEq, Repr

namespace Violation

/-- The key whose record is at fault. -/
def key : Violation → Key
  | unnamed key | untyped key | spurious key => key
  | repeats key _ | dangling key _ _ | unanswered key _ _ => key

open Text in
/-- What is said of a breach. -/
def message : Violation → String
  | unnamed key => s!"Symbol {quote key} has no name."
  | untyped key => s!"Symbol {quote key} has no type."
  | spurious key => s!"Symbol {quote key} is spurious: all edge fields are empty."
  | repeats key field => s!"Symbol {quote key} lists duplicates in {field.label}."
  | dangling key field target =>
      s!"Symbol {quote key} {field.label} {quote target}, which does not exist."
  | unanswered key field target =>
      s!"Symbol {quote key} {field.label} {quote target}, but {quote target} " ++
        s!"does not list it in {field.inverse.label}."

end Violation

namespace Table

/-- The breach of a single edge, if it is one. -/
def edgeViolation? (table : Table) (key : Key) (field : EdgeField) (target : Key) :
    Option Violation :=
  match table.get? target with
  | none => some (.dangling key field target)
  | some record =>
      if (record.edges field.inverse).contains key then none
      else some (.unanswered key field target)

/-- The breaches of one list of edges. -/
def fieldViolations (table : Table) (key : Key) (record : Record) (field : EdgeField) :
    List Violation :=
  (if (record.edges field).Nodup then [] else [.repeats key field]) ++
    (record.edges field).filterMap (table.edgeViolation? key field)

/-- The breaches of one record. -/
def recordViolations (table : Table) (key : Key) (record : Record) : List Violation :=
  (if record.name.isEmpty then [.unnamed key] else []) ++
    (if record.kind.isNone then [.untyped key] else []) ++
    (if record.hasEdges then [] else [.spurious key]) ++
    EdgeField.all.flatMap (table.fieldViolations key record)

/-- Every breach, in table order. -/
def violations (table : Table) : List Violation :=
  table.entries.flatMap fun entry => table.recordViolations entry.1 entry.2

/-- A table without breaches. -/
def isSound (table : Table) : Bool :=
  table.violations.isEmpty

/-- What a check of the table reports. -/
def soundnessEvent (table : Table) : Event :=
  if table.isSound then .tableSound table.size
  else .tableUnsound table.violations.length table.size

end Table

end CallGraph
