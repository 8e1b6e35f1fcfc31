import CallGraph.Symbol.Key

/-!
# Symbol records

What is known of one function or variable: its display name, its kind, who sees it, the
compilation units that declare it, and four lists of edges.  Calls and references lead forward;
each has an inverse that is kept on the target.  Adding to a list never repeats a member and never
moves one.
-/

namespace CallGraph

/-- What a symbol denotes. -/
inductive Kind where
  /-- A function. -/
  | function
  /-- A variable of static storage. -/
  | object
  deriving DecidableEq, Repr

/-- Who sees a symbol. -/
inductive Visibility where
  /-- Only the compilation unit that declares it. -/
  | fileLocal
  /-- Every compilation unit. -/
  | exported
  deriving DecidableEq, Repr

/-- The four lists of edges of a record. -/
inductive EdgeField where
  /-- The symbols that this one mentions. -/
  | references
  /-- The symbols that mention this one. -/
  | referring
  /-- The functions that this one calls. -/
  | calls
  /-- The functions that call this one. -/
  | calledBy
  deriving DecidableEq, Repr

namespace Kind

/-- The word for a kind. -/
def label : Kind → String
  | function => "function"
  | object => "variable"

/-- The kind of a word. -/
def ofLabel? (word : String) : Option Kind :=
  [function, object].find? fun kind => kind.label == word

end Kind

namespace Visibility

/-- The word for a visibility. -/
def label : Visibility → String
  | fileLocal => "private"
  | exported => "public"

/-- The visibility of a word. -/
def ofLabel? (word : String) : Option Visibility :=
  [fileLocal, exported].find? fun visibility => visibility.label == word

end Visibility

namespace EdgeField

/-- Every field, in the order in which records are checked and merged. -/
def all : List EdgeField := [references, referring, calls, calledBy]

/-- The fields that lead forward. -/
def forward : List EdgeField := [references, calls]

/-- The fields that lead back. -/
def backward : List EdgeField := [referring, calledBy]

/-- The field that holds the inverse edge on the target. -/
def inverse : EdgeField → EdgeField
  | references => referring
  | referring => references
  | calls => calledBy
  | calledBy => calls

/-- Whether a field leads forward. -/
def isForward : EdgeField → Bool
  | references | calls => true
  | referring | calledBy => false

/-- The word for a field. -/
def label : EdgeField → String
  | references => "references"
  | referring => "referring"
  | calls => "calls"
  | calledBy => "called_by"

/-- The field of a word. -/
def ofLabel? (word : String) : Option EdgeField :=
  all.find? fun field => field.label == word

@[simp] theorem inverse_inverse (field : EdgeField) : field.inverse.inverse = field := by
  cases field <;> rfl

@[simp] theorem mem_all (field : EdgeField) : field ∈ all := by
  cases field <;> decide

theorem mem_forward_iff (field : EdgeField) : field ∈ forward ↔ field.isForward = true := by
  cases field <;> decide

end EdgeField

/-- A list followed by the new members of another, each once and in order. -/
def union (members : List String) : List String → List String
  | [] => members
  | item :: items =>
      if item ∈ members then union members items else union (members ++ [item]) items

/-- The members of a list, each once, in the order of their first occurrence. -/
def distinctMembers (items : List String) : List String :=
  union [] items

/-- What is known of one function or variable. -/
structure Record where
  /-- The name shown to people. -/
  name : String := ""
  /-- What the symbol denotes, once a type was read. -/
  kind : Option Kind := none
  /-- Who sees the symbol, once a visibility was read. -/
  visibility : Option Visibility := none
  /-- The compilation units that declare the symbol. -/
  origins : List Origin := []
  /-- The symbols that this one mentions. -/
  references : List Key := []
  /-- The symbols that mention this one. -/
  referring : List Key := []
  /-- The functions that this one calls. -/
  calls : List Key := []
  /-- The functions that call this one. -/
  calledBy : List Key := []
  deriving DecidableEq, Repr, Inhabited

namespace Record

/-- The edges of a field. -/
def edges (record : Record) : EdgeField → List Key
  | .references => record.references
  | .referring => record.referring
  | .calls => record.calls
  | .calledBy => record.calledBy

/-- Replace the edges of a field as they are. -/
def withEdges (record : Record) (field : EdgeField) (keys : List Key) : Record :=
  match field with
  | .references => { record with references := keys }
  | .referring => { record with referring := keys }
  | .calls => { record with calls := keys }
  | .calledBy => { record with calledBy := keys }

/-- Replace the edges of a field by the members of a list, each once. -/
def setEdges (record : Record) (field : EdgeField) (keys : List Key) : Record :=
  record.withEdges field (distinctMembers keys)

/-- Add edges to a field. -/
def addEdges (record : Record) (field : EdgeField) (keys : List Key) : Record :=
  record.withEdges field (union (record.edges field) keys)

/-- Add compilation units. -/
def addOrigins (record : Record) (origins : List Origin) : Record :=
  { record with origins := union record.origins origins }

/-- Whether any of the four lists has a member. -/
def hasEdges (record : Record) : Bool :=
  EdgeField.all.any fun field => !(record.edges field).isEmpty

@[simp] theorem edges_withEdges_same (record : Record) (field : EdgeField) (keys : List Key) :
    (record.withEdges field keys).edges field = keys := by
  cases field <;> rfl

theorem edges_withEdges_of_ne (record : Record) {field other : EdgeField} (keys : List Key)
    (different : other ≠ field) :
    (record.withEdges field keys).edges other = record.edges other := by
  cases field <;> cases other <;> simp_all [withEdges, edges]

@[simp] theorem name_withEdges (record : Record) (field : EdgeField) (keys : List Key) :
    (record.withEdges field keys).name = record.name := by
  cases field <;> rfl

@[simp] theorem kind_withEdges (record : Record) (field : EdgeField) (keys : List Key) :
    (record.withEdges field keys).kind = record.kind := by
  cases field <;> rfl

@[simp] theorem visibility_withEdges (record : Record) (field : EdgeField) (keys : List Key) :
    (record.withEdges field keys).visibility = record.visibility := by
  cases field <;> rfl

@[simp] theorem origins_withEdges (record : Record) (field : EdgeField) (keys : List Key) :
    (record.withEdges field keys).origins = record.origins := by
  cases field <;> rfl

end Record

end CallGraph
