import CallGraph.Table.Basic

/-!
# The persisted table

A table is kept as text, one block a symbol, the blocks in increasing order of their keys:

    list_push:
      name: list_push
      type: function
      visibility: public
      called_by: [main]
      filename: [src/list.c]

Name, type and visibility come first, then the lists.  Empty lists are left out except for the
origins.  Nothing is quoted, so a table survives only if its texts keep clear of what separates
them.
-/

namespace CallGraph

/-- The fields of a block that hold a single text. -/
inductive ScalarField where
  /-- The name shown to people. -/
  | name
  /-- What the symbol denotes. -/
  | type
  /-- Who sees the symbol. -/
  | visibility
  deriving DecidableEq, Repr

/-- The fields of a block that hold a list. -/
inductive ListField where
  /-- One of the four lists of edges. -/
  | edges (field : EdgeField)
  /-- The compilation units. -/
  | origins
  deriving DecidableEq, Repr

/-- A field of a block. -/
inductive BlockField where
  /-- A field with a single text. -/
  | scalar (field : ScalarField)
  /-- A field with a list. -/
  | items (field : ListField)
  deriving DecidableEq, Repr

/-- The label of a field with a single text. -/
def ScalarField.label : ScalarField → String
  | name => "name"
  | type => "type"
  | visibility => "visibility"

/-- The label of a field with a list. -/
def ListField.label : ListField → String
  | edges field => field.label
  | origins => "filename"

namespace BlockField

/-- The label of a field. -/
def label : BlockField → String
  | scalar field => field.label
  | items field => field.label

/-- The fields, in the order in which they are written. -/
def all : List BlockField :=
  [scalar .name, scalar .type, scalar .visibility, items (.edges .references),
   items (.edges .referring), items (.edges .calls), items (.edges .calledBy), items .origins]

/-- The fields without which a block is incomplete. -/
def mandatory : List BlockField := [scalar .name, scalar .type, items .origins]

/-- The field of a label. -/
def ofLabel? (word : String) : Option BlockField :=
  all.find? fun field => field.label == word

end BlockField

/-- The text of a field, if the record has one. -/
def Record.scalar? (record : Record) : ScalarField → Option String
  | .name => some record.name
  | .type => record.kind.map Kind.label
  | .visibility => record.visibility.map Visibility.label

/-- The list of a field. -/
def Record.items (record : Record) : ListField → List String
  | .edges field => record.edges field
  | .origins => record.origins

/-- The line of a field, if it is written. -/
def Record.fieldLine? (record : Record) : BlockField → Option String
  | .scalar field => (record.scalar? field).map fun value => s!"  {field.label}: {value}"
  | .items field =>
      if (record.items field).isEmpty && field ≠ .origins then none
      else some ("  " ++ field.label ++ ": [" ++ ", ".intercalate (record.items field) ++ "]")

/-- The lines of a block. -/
def Record.blockLines (key : Key) (record : Record) : List String :=
  (key ++ ":") :: BlockField.all.filterMap record.fieldLine?

namespace Table

/-- The entries in increasing order of their keys. -/
def sortedEntries (table : Table) : List (Key × Record) :=
  table.entries.mergeSort fun left right => decide (left.1 ≤ right.1)

/-- The lines of the persisted table. -/
def formatLines (table : Table) : List String :=
  table.sortedEntries.flatMap fun entry => Record.blockLines entry.1 entry.2

/-- The persisted table. -/
def format (table : Table) : String :=
  String.join (table.formatLines.map fun line => line ++ "\n")

end Table

end CallGraph
