import CallGraph.Data.Basic
import CallGraph.Data.WholeText

/-!
# Checking data against a schema

A schema takes data to a value of a type or says everything that is wrong with it, each fault with
the place where it was found.  Numbers and truth values may be written in several ways; texts and
lists are taken as they are.
-/

namespace CallGraph

/-- What is wrong at one place. -/
inductive Fault where
  /-- A required field is missing. -/
  | missing
  /-- A field is not known. -/
  | extraForbidden
  /-- Not an object. -/
  | modelType
  /-- Not a text. -/
  | stringType
  /-- Not a list. -/
  | listType
  /-- Not a map. -/
  | dictType
  /-- Nothing that stands for a whole number. -/
  | intType
  /-- A text that does not write a whole number. -/
  | intParsing
  /-- A number out of range. -/
  | intParsingSize
  /-- A number with a fraction. -/
  | intFromFloat
  /-- An infinite number, or none at all. -/
  | finiteNumber
  /-- Nothing that stands for a truth value. -/
  | boolType
  /-- A text or number that is no truth value. -/
  | boolParsing
  /-- Not one of the given words. -/
  | literalError
  /-- A number below the least one allowed. -/
  | greaterThanEqual
  /-- A rule of the field is broken. -/
  | valueError
  deriving DecidableEq, Repr

/-- The word for a fault. -/
def Fault.label : Fault → String
  | missing => "missing"
  | extraForbidden => "extra_forbidden"
  | modelType => "model_type"
  | stringType => "string_type"
  | listType => "list_type"
  | dictType => "dict_type"
  | intType => "int_type"
  | intParsing => "int_parsing"
  | intParsingSize => "int_parsing_size"
  | intFromFloat => "int_from_float"
  | finiteNumber => "finite_number"
  | boolType => "bool_type"
  | boolParsing => "bool_parsing"
  | literalError => "literal_error"
  | greaterThanEqual => "greater_than_equal"
  | valueError => "value_error"

/-- A fault with the place where it was found, outermost name first. -/
structure PlacedFault where
  /-- The names and positions that lead to the place. -/
  place : List String
  /-- What is wrong there. -/
  fault : Fault
  deriving DecidableEq, Repr

/-- All faults of a value that was to fit a model. -/
structure Mismatch where
  /-- The name of the model. -/
  model : String
  /-- The faults, in the order of the model's fields. -/
  faults : List PlacedFault
  deriving DecidableEq, Repr

/-- A name as part of a place.  Points divide the parts, so a name with a point is set off. -/
def placeName (name : String) : String :=
  if name.toList.contains '.' then "`" ++ name ++ "`" else name

/-- What is said of a fault. -/
def PlacedFault.describe (placed : PlacedFault) : String :=
  let bracketed := "[" ++ placed.fault.label ++ "]"
  if placed.place.isEmpty then bracketed
  else ".".intercalate (placed.place.map placeName) ++ " " ++ bracketed

/-- What is said of a value that does not fit a model. -/
def Mismatch.message (mismatch : Mismatch) : String :=
  let count := mismatch.faults.length
  let noun := if count = 1 then "error" else "errors"
  s!"{count} validation {noun} for {mismatch.model}: " ++
    "; ".intercalate (mismatch.faults.map PlacedFault.describe)

/-- A value, or all that is wrong with the data it was to be taken from. -/
inductive Checked (α : Type) where
  /-- The data fits. -/
  | fine (value : α)
  /-- The data does not fit. -/
  | faulty (faults : List PlacedFault)

namespace Checked

variable {α β : Type}

/-- Change the value. -/
def map (change : α → β) : Checked α → Checked β
  | fine value => fine (change value)
  | faulty faults => faulty faults

/-- Apply a checked function; the faults of both sides are kept. -/
def seq : Checked (α → β) → Checked α → Checked β
  | fine change, fine value => fine (change value)
  | fine _, faulty faults => faulty faults
  | faulty faults, fine _ => faulty faults
  | faulty left, faulty right => faulty (left ++ right)

instance : Functor Checked := ⟨map, fun value checked => checked.map fun _ => value⟩

instance : Seq Checked := ⟨fun change value => change.seq (value ())⟩

/-- A single fault at the place itself. -/
def fault (found : Fault) : Checked α := faulty [⟨[], found⟩]

/-- Name the place of all faults. -/
def within (name : String) : Checked α → Checked α
  | fine value => fine value
  | faulty faults => faulty (faults.map fun placed => { placed with place := name :: placed.place })

/-- Add faults, if there are any. -/
def also (checked : Checked α) (more : List PlacedFault) : Checked α :=
  match checked with
  | fine value => if more.isEmpty then fine value else faulty more
  | faulty faults => faulty (faults ++ more)

/-- Check further. -/
def andThen (checked : Checked α) (next : α → Checked β) : Checked β :=
  match checked with
  | fine value => next value
  | faulty faults => faulty faults

/-- Check every item, and keep the faults of all. -/
def all : List (Checked α) → Checked (List α)
  | [] => fine []
  | item :: items => (item.map List.cons).seq (all items)

/-- The value, or the mismatch with a model. -/
def toExcept (checked : Checked α) (model : String) : Except Mismatch α :=
  match checked with
  | fine value => .ok value
  | faulty faults => .error ⟨model, faults⟩

end Checked

namespace Schema

open Checked

/-- A text. -/
def text : Data → Checked String
  | .text value => fine value
  | _ => fault .stringType

/-- A list of items of one kind; faults are placed by position. -/
def list {α : Type} (item : Data → Checked α) : Data → Checked (List α)
  | .list items =>
      all ((items.zipIdx).map fun entry => (item entry.1).within (toString entry.2))
  | _ => fault .listType

/-- A map to values of one kind; faults are placed by key. -/
def dict {α : Type} (value : Data → Checked α) : Data → Checked (List (String × α))
  | .object fields =>
      all (fields.map fun field =>
        ((value field.2).within field.1).map fun value => (field.1, value))
  | _ => fault .dictType

/-- One of several words, or nothing. -/
def wordOrNull {α : Type} (ofWord? : String → Option α) : Data → Checked (Option α)
  | .null => fine none
  | .text word =>
      match ofWord? word with
      | some value => fine (some value)
      | none => fault .literalError
  | _ => fault .literalError

/-- A whole number, in any of the ways in which it may be written. -/
def integer : Data → Checked Int
  | .int number => fine number
  | .bool value => fine (if value then 1 else 0)
  | .real number =>
      match number.wholeness with
      | .whole whole =>
          if -signedBound < whole && whole < signedBound then fine whole
          else fault .intParsingSize
      | .fractional => fault .intFromFloat
      | .tooLarge => fault .finiteNumber
  | .nonFinite => fault .finiteNumber
  | .text value =>
      match WholeText.ofText value with
      | .number number => fine number
      | .tooLong => fault .intParsingSize
      | .other => fault .intParsing
  | _ => fault .intType

/-- The words for true, in lower case. -/
def trueWords : List String := ["1", "on", "t", "true", "y", "yes"]

/-- The words for false, in lower case. -/
def falseWords : List String := ["0", "off", "f", "false", "n", "no"]

/-- The truth value of a number. -/
def truthOf (number : Int) : Checked Bool :=
  if number = 0 then fine false else if number = 1 then fine true else fault .boolParsing

/-- A truth value, in any of the ways in which it may be written. -/
def boolean : Data → Checked Bool
  | .bool value => fine value
  | .int number =>
      if -signedBound ≤ number && number < signedBound then truthOf number else fault .boolType
  | .real number =>
      match number.wholeness with
      | .whole whole =>
          if -signedBound < whole && whole < signedBound then truthOf whole else fault .boolType
      | _ => fault .boolType
  | .text value =>
      let lower := String.ofList (value.toList.map Char.toLower)
      if trueWords.contains lower then fine true
      else if falseWords.contains lower then fine false
      else fault .boolParsing
  | _ => fault .boolType

/-- A field that must be there. -/
def required {α : Type} (fields : List (String × Data)) (name : String)
    (check : Data → Checked α) : Checked α :=
  match fields.lookup name with
  | some value => (check value).within name
  | none => (fault .missing).within name

/-- A field that may be missing. -/
def optional {α : Type} (fields : List (String × Data)) (name : String)
    (check : Data → Checked α) (default : α) : Checked α :=
  match fields.lookup name with
  | some value => (check value).within name
  | none => fine default

/-- The fields of an object. -/
def fieldsOf : Data → Checked (List (String × Data))
  | .object fields => fine fields
  | _ => fault .modelType

end Schema

end CallGraph
