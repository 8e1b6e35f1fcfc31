import CallGraph.Data.Schema
import CallGraph.Toml.Reader

/-!
# Settings

What a project may set for itself: where the artifacts go, which files are dumps, which of them to
read, and what queries ignore.  Unknown settings are refused.
-/

namespace CallGraph

/-- The settings of a project. -/
structure Settings where
  /-- The directory of the artifacts. -/
  outputDir : String := ".cgraph"
  /-- How the names of dump files end. -/
  dumpSuffix : String := ".cgraph"
  /-- Shell patterns for the dumps to read; none means all. -/
  included : List String := []
  /-- Shell patterns for the dumps not to read. -/
  excluded : List String := []
  /-- Whether ignore files of subdirectories count. -/
  nestedIgnore : Bool := false
  /-- How many files may be read at a time. -/
  jobs : Int := 1
  /-- Keys or patterns of the symbols that queries do not enter. -/
  ignored : List String := []
  deriving DecidableEq, Repr

namespace Settings

open Schema Checked

/-- The file of the settings. -/
def fileName : String := "cgraph.toml"

/-- The name of the model of the settings. -/
def modelName : String := "CGraphConfig"

/-- The names of all settings. -/
def fieldNames : List String :=
  ["output_dir", "dump_suffix", "include", "exclude", "nested_gitignore", "jobs", "ignore"]

/-- A suffix of file names: not empty, without slash and star. -/
def suffix (data : Data) : Checked String :=
  (text data).andThen fun value =>
    if value.isEmpty || value.toList.contains '/' || value.toList.contains '*' then
      fault .valueError
    else fine value

/-- A whole number that is at least one. -/
def positive (data : Data) : Checked Int :=
  (integer data).andThen fun number => if number < 1 then fault .greaterThanEqual else fine number

/-- The faults of fields that are not known. -/
def unknownFields (fields : List (String × Data)) : List PlacedFault :=
  (fields.filter fun field => !fieldNames.contains field.1).map fun field =>
    ⟨[field.1], .extraForbidden⟩

/-- Take settings from the fields of an object. -/
def ofFields (fields : List (String × Data)) : Checked Settings :=
  let defaults : Settings := {}
  (Settings.mk <$> optional fields "output_dir" text defaults.outputDir
    <*> optional fields "dump_suffix" suffix defaults.dumpSuffix
    <*> optional fields "include" (list text) defaults.included
    <*> optional fields "exclude" (list text) defaults.excluded
    <*> optional fields "nested_gitignore" boolean defaults.nestedIgnore
    <*> optional fields "jobs" positive defaults.jobs
    <*> optional fields "ignore" (list text) defaults.ignored).also (unknownFields fields)

/-- Take settings from an object. -/
def ofData (data : Data) : Except Mismatch Settings :=
  ((fieldsOf data).andThen ofFields).toExcept modelName

end Settings

/-- Why settings cannot be used. -/
inductive SettingsError where
  /-- The file of the settings is not TOML. -/
  | notToml (path : String)
  /-- A number in the file of the settings has too many digits. -/
  | numberTooLong
  /-- Values in the file of the settings are nested too deeply. -/
  | tooDeep
  /-- The settings do not fit. -/
  | mismatch (path : String) (mismatch : Mismatch)
  /-- No directory is given for the artifacts. -/
  | outputDirEmpty
  /-- The directory of the artifacts is not given relative to the project. -/
  | outputDirAbsolute
  /-- The directory of the artifacts lies outside the project. -/
  | outputDirEscapes (outputDir : String)
  deriving DecidableEq, Repr

/-- Whether settings cannot be used because of what they say; otherwise they cannot be read at
all. -/
def SettingsError.isTold : SettingsError → Bool
  | numberTooLong | tooDeep => false
  | _ => true

/-- What is said of settings that cannot be used.  The words in which the decoder says why a file is
not TOML are left out. -/
def SettingsError.message : SettingsError → String
  | notToml path => s!"Invalid TOML in {path}"
  | numberTooLong => "A number has too many digits"
  | tooDeep => "Values are nested too deeply"
  | mismatch path found => s!"Invalid config in {path}: {found.message}"
  | outputDirEmpty => "output_dir must be a non-empty relative path"
  | outputDirAbsolute => "output_dir must be a relative path within the project root"
  | outputDirEscapes outputDir => s!"output_dir '{outputDir}' escapes the project root"

/-- Read the text of a settings file. -/
def Settings.parse (path text : String) : Except SettingsError Settings :=
  match Toml.parse text with
  | .error .malformed => .error (.notToml path)
  | .error .numberTooLong => .error .numberTooLong
  | .error .tooDeep => .error .tooDeep
  | .ok data =>
      match Settings.ofData data with
      | .ok settings => .ok settings
      | .error found => .error (.mismatch path found)

end CallGraph
