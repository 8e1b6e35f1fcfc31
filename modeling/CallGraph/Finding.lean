import CallGraph.Data.Schema
import CallGraph.Table.Violation

/-!
# Findings

What a check of a table or of written artifacts has to say: what is wrong, in which artifact, and
where.  Every finding is kept; none hides another.
-/

namespace CallGraph

/-- The version that every artifact carries. -/
def schemaVersion : Int := 1

/-- Something wrong with a table or an artifact. -/
inductive Problem where
  /-- The table is not sound. -/
  | unsound (violation : Violation)
  /-- A symbol has two blocks. -/
  | symbolTwice (key : Key)
  /-- A line is neither a key nor a field. -/
  | unrecognisedLine (line : String)
  /-- A field stands outside any block. -/
  | strayField (label : String)
  /-- A field has an unknown label. -/
  | unknownField (label : String)
  /-- A field comes twice in a block. -/
  | fieldTwice (label : String)
  /-- The value of a field is no list. -/
  | malformedList (label value : String)
  /-- A block lacks fields. -/
  | missingFields (labels : List String)
  /-- The values of a block do not fit a record. -/
  | invalidFields (mismatch : Mismatch)
  /-- A file cannot be read. -/
  | unreadable
  /-- The directory of the artifacts does not exist. -/
  | noDirectory
  /-- The path of the artifacts is no directory. -/
  | notDirectory
  /-- An artifact does not exist. -/
  | fileMissing
  /-- A text is no JSON. -/
  | invalidJson
  /-- A JSON file holds no object. -/
  | notObject (file : String)
  /-- A value does not fit its schema. -/
  | schemaMismatch (mismatch : Mismatch)
  /-- The version of the schema is another one. -/
  | versionMismatch (found : Int)
  /-- The version of the schema is not given. -/
  | versionMissing
  deriving DecidableEq, Repr

namespace Problem

open Text in
/-- What is said of a problem.  The words in which the system says why a file cannot be read, or a
decoder why a text is no JSON or a value does not fit, are left out. -/
def message : Problem → String
  | unsound violation => violation.message
  | symbolTwice key => s!"Symbol {quote key} is defined twice."
  | unrecognisedLine line => s!"Unrecognised line: {quote line}."
  | strayField label => s!"Field {quote label} appears before any symbol key line."
  | unknownField label => s!"Unknown field {quote label}."
  | fieldTwice label => s!"Field {quote label} is defined twice."
  | malformedList label value => s!"Field {quote label} is not a well-formed list: {quote value}."
  | missingFields labels => "Missing mandatory field(s): " ++ ", ".intercalate labels ++ "."
  | invalidFields mismatch => s!"Invalid field value: {mismatch.message}."
  | unreadable => "Failed to read file."
  | noDirectory => "Artifacts directory does not exist."
  | notDirectory => "Artifacts path is not a directory."
  | fileMissing => "Required artifact file is missing."
  | invalidJson => "Invalid JSON."
  | notObject file => s!"Expected JSON object for {file}."
  | schemaMismatch mismatch => s!"Schema validation failed: {mismatch.message}."
  | versionMismatch found =>
      s!"Schema version mismatch: expected {schemaVersion}, got {found}."
  | versionMissing => s!"Missing schema_version; defaulted to {schemaVersion}."

end Problem

/-- A problem with the artifact and the place where it was found. -/
structure Finding where
  /-- The artifact. -/
  artifact : String
  /-- What is wrong. -/
  problem : Problem
  /-- The file, if there is one. -/
  path : Option String := none
  /-- The line of the file, from one on. -/
  line : Option Nat := none
  /-- The key of the record. -/
  key : Option Key := none
  deriving DecidableEq, Repr

namespace Finding

/-- What is said of a finding. -/
def message (finding : Finding) : String := finding.problem.message

/-- Where a finding belongs: the file and the line, or else the key, or else the artifact. -/
def location (finding : Finding) : String :=
  match finding.path, finding.line with
  | some path, some line => s!"{path}:{line}"
  | some path, none => path
  | none, _ =>
      match finding.key with
      | some key => if key.isEmpty then finding.artifact else key
      | none => finding.artifact

/-- A finding as a line of text. -/
def report (finding : Finding) : String :=
  s!"{finding.location}: {finding.message}"

end Finding

/-- The findings on the soundness of a table. -/
def Table.findings (table : Table) (artifact : String) : List Finding :=
  table.violations.map fun violation =>
    { artifact, problem := .unsound violation, key := some violation.key }

end CallGraph
