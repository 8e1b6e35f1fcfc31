import CallGraph.KeyMap
import CallGraph.Symbol.Record
import CallGraph.Text.Quoted

/-!
# The symbol table

A table maps keys to records and remembers the order in which the keys came.  A record never
changes its key in place: re-keying takes it out and puts it in again at the end.  Operations that
may fail say what table they leave behind, also when they fail.
-/

namespace CallGraph

/-- The records by key, and the origins of public symbols that were dropped for want of edges. -/
structure Table where
  /-- The records, oldest key first. -/
  records : KeyMap Record := ∅
  /-- The origins of dropped public symbols, which return to the symbol if it comes back. -/
  detached : KeyMap (List Origin) := ∅

/-- Why an operation on the table fails. -/
inductive TableError where
  /-- The key has no record. -/
  | absent (key : Key)
  /-- The key has a record already. -/
  | taken (key : Key)
  /-- The record to merge does not exist. -/
  | noSource (target source : Key)
  /-- Two records to merge are of different kinds. -/
  | kindConflict (target source : Key) (targetKind sourceKind : Option Kind)
  /-- Two records to merge are of different visibility. -/
  | visibilityConflict (target source : Key) (targetVisibility sourceVisibility : Option Visibility)
  deriving DecidableEq, Repr

namespace TableError

open Text in
/-- What is said of a failed operation. -/
def message : TableError → String
  | absent key => key
  | taken key => s!"Symbol {quote key} already exists in the table"
  | noSource target source =>
      s!"Cannot merge {quote source} into {quote target}: source symbol does not exist"
  | kindConflict target source targetKind sourceKind =>
      conflict target source "kind" (targetKind.map Kind.label) (sourceKind.map Kind.label)
  | visibilityConflict target source targetVisibility sourceVisibility =>
      conflict target source "visibility" (targetVisibility.map Visibility.label)
        (sourceVisibility.map Visibility.label)
where
  /-- Two records disagree on one of their properties. -/
  conflict (target source : Key) (property : String) (left right : Option String) : String :=
    s!"Cannot merge {quote source} into {quote target}: {property} differs " ++
      s!"({quoteOption left} vs {quoteOption right})"

end TableError

/-- Absorb another declaration of the same symbol: its origins and its edges. -/
def Record.absorb (record other : Record) : Record :=
  EdgeField.all.foldl (fun joined field => joined.addEdges field (other.edges field))
    (record.addOrigins other.origins)

namespace Table

/-- The table without records. -/
def empty : Table := {}

instance : EmptyCollection Table := ⟨empty⟩

instance : Inhabited Table := ⟨empty⟩

/-- The keys, oldest first. -/
def keys (table : Table) : List Key := table.records.keys

/-- The number of records. -/
def size (table : Table) : Nat := table.records.size

/-- The record of a key. -/
def get? (table : Table) (key : Key) : Option Record := table.records.get? key

/-- Whether a key has a record. -/
def contains (table : Table) (key : Key) : Bool := table.records.contains key

/-- The keys with their records, oldest key first. -/
def entries (table : Table) : List (Key × Record) := table.records.entries

/-- Change the record of a key, if it has one. -/
def modify (table : Table) (key : Key) (change : Record → Record) : Table :=
  { table with records := table.records.modify key change }

/-- Forget a key. -/
def erase (table : Table) (key : Key) : Table :=
  { table with records := table.records.erase key }

/-- Give a key a record: in its place if it has one already, at the end otherwise. -/
def put (table : Table) (key : Key) (record : Record) : Table :=
  { table with records := table.records.insert key record }

/-- The table of a list of records, where a later record of a key replaces an earlier one. -/
def ofRecords (records : List (Key × Record)) : Table :=
  { records := KeyMap.ofList records }

/-- Whether two tables give every key the same record, whatever the order of their keys. -/
def agrees (left right : Table) : Bool := left.records.agrees right.records

/-- Make sure that a key has a record, an empty one if need be. -/
def ensure (table : Table) (key : Key) : Table :=
  if table.contains key then table else table.put key {}

/-- An operation on the table that may fail and says what table it leaves behind. -/
abbrev Action := EStateM TableError Table

/-- Put a record under a key that has none. -/
def insert (key : Key) (record : Record) : Action Unit := fun table =>
  if table.contains key then .error (.taken key) table
  else .ok () (table.put key record)

/-- Take the record of a key out of the table. -/
def remove (key : Key) : Action Record := fun table =>
  match table.get? key with
  | some record => .ok record (table.erase key)
  | none => .error (.absent key) table

/-- Move a record to another key.  The old key is gone even if the new one is taken. -/
def rekey (old new : Key) : Action Unit := do
  let record ← remove old
  insert new record

/-- Merge the record of `source` into the one of `target`.

Without a record at `target` this moves the record.  Otherwise both records must agree on kind
and visibility; the origins and the edges of `source` are added to those of `target`. -/
def merge (target source : Key) : Action Unit := fun table =>
  match table.get? source with
  | none => .error (.noSource target source) table
  | some incoming =>
      if target = source then .ok () table
      else
        match table.get? target with
        | none => rekey source target table
        | some record =>
            if record.kind ≠ incoming.kind then
              .error (.kindConflict target source record.kind incoming.kind) table
            else if record.visibility ≠ incoming.visibility then
              .error (.visibilityConflict target source record.visibility incoming.visibility) table
            else
              .ok () ((table.modify target fun record => record.absorb incoming).erase source)

/-- Whether merging would join two records rather than move one. -/
def joins (table : Table) (target source : Key) : Bool :=
  target != source && table.contains target && table.contains source

/-- Keep the origins of a public symbol for its return. -/
def detach (table : Table) (key : Key) (origins : List Origin) : Table :=
  let known := (table.detached.get? key).getD []
  { table with detached := table.detached.insert key (union known origins) }

/-- Whether a key has a record without any edge. -/
def isSpurious (table : Table) (key : Key) : Bool :=
  match table.get? key with
  | some record => !record.hasEdges
  | none => false

/-- Drop the record of a key if it has no edge at all.

A public symbol leaves its origins behind, so that a later declaration gets them back. -/
def dropSpurious (table : Table) (key : Key) : Table :=
  match table.get? key with
  | none => table
  | some record =>
      if record.hasEdges then table
      else if !Key.isPrivate key && !record.origins.isEmpty then
        (table.detach key record.origins).erase key
      else table.erase key

/-- How a table is shown in one line. -/
def describe (table : Table) : String :=
  s!"SymbolTable({table.size} symbols)"

end Table

end CallGraph
