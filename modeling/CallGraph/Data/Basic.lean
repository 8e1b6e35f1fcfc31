import CallGraph.Data.Decimal

/-!
# Data

The values that artifacts and settings are made of.  A reader of JSON or of settings produces
them, a schema checks them, and a printer writes them.  The fields of an object keep the order in
which they came; no field comes twice.
-/

namespace CallGraph

/-- A value of an artifact or of a settings file. -/
inductive Data where
  /-- Nothing. -/
  | null
  /-- A truth value. -/
  | bool (value : Bool)
  /-- A whole number. -/
  | int (number : Int)
  /-- A number with a fraction or an exponent. -/
  | real (number : Decimal)
  /-- An infinite number, or none at all. -/
  | nonFinite
  /-- A date, a time or both. -/
  | moment
  /-- A text. -/
  | text (value : String)
  /-- A list. -/
  | list (items : List Data)
  /-- Named fields. -/
  | object (fields : List (String × Data))
  deriving Repr, Inhabited

namespace Data

/-- Give a field a value: in its place if it has one already, at the end otherwise. -/
def putField (fields : List (String × Data)) (name : String) (value : Data) :
    List (String × Data) :=
  if fields.any fun field => field.1 == name then
    fields.map fun field => if field.1 == name then (name, value) else field
  else fields ++ [(name, value)]

/-- The value of a field of an object. -/
def field? : Data → String → Option Data
  | object fields, name => fields.lookup name
  | _, _ => none

end Data

end CallGraph
