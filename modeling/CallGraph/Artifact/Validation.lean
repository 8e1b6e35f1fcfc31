import CallGraph.Artifact.Summary
import CallGraph.Artifact.Symbols
import CallGraph.Json.Reader
import CallGraph.Table.Reader
import CallGraph.Text.Utf8

/-!
# Checking artifacts

Every artifact is checked by itself: the table must be read and be sound, every line of the
symbols must be JSON that fits its schema, and so must the summary.  A version of the schema that
is missing is an error only where versions are required; a missing and a wrong version are each
reported once for the symbols, at the first line that shows it.
-/

namespace CallGraph

/-- What a check has found. -/
structure Report where
  /-- What must not be. -/
  errors : List Finding := []
  /-- What deserves attention. -/
  warnings : List Finding := []

namespace Report

/-- Whether nothing was found that must not be. -/
def ok (report : Report) : Bool := report.errors.isEmpty

/-- One report after another. -/
def append (left right : Report) : Report :=
  ⟨left.errors ++ right.errors, left.warnings ++ right.warnings⟩

instance : Append Report := ⟨append⟩

/-- A report of one error. -/
def error (finding : Finding) : Report := ⟨[finding], []⟩

end Report

namespace Artifact

/-- The file of the table. -/
def tableFile : String := "cgraph.yaml"

/-- The file of the symbols. -/
def symbolsFile : String := "symbols.jsonl"

/-- The file of the summary. -/
def summaryFile : String := "summary.json"

/-- The version of the schema must be the known one. -/
def checkVersion (strict : Bool) (version : Option Int) (finding : Problem → Finding) : Report :=
  match version with
  | some found =>
      if found = schemaVersion then {} else .error (finding (.versionMismatch found))
  | none =>
      if strict then .error (finding .versionMissing) else ⟨[], [finding .versionMissing]⟩

/-- What was read of a persisted table, and whether the table is sound. -/
def checkTable (path : String) (reading : TableReading) : Report :=
  let unsound := match reading.table with
    | some table => (table.findings "table").map fun finding => { finding with path := some path }
    | none => []
  ⟨reading.findings ++ unsound, []⟩

/-- Read a persisted table from the bytes of its file, which must be UTF-8. -/
def readTable (path : String) (content : Option ByteArray) : TableReading :=
  match content.bind Text.decode? with
  | some text => Table.read (Text.fileText text) (some path)
  | none => ⟨none, [{ artifact := "table", problem := .unreadable, path := some path }]⟩

/-- Bytes that count as blanks around a line. -/
def isBlankByte (byte : UInt8) : Bool :=
  byte == 32 || (9 ≤ byte && byte ≤ 13)

/-- The JSON value of some bytes. -/
def decodeJson? (bytes : List UInt8) : Option Data :=
  (Text.decode? ⟨bytes.toArray⟩).bind (Json.parse? .machine)

/-- What one line of the symbols turns out to be. -/
inductive LineVerdict where
  /-- Nothing but blanks. -/
  | blank
  /-- Not JSON, or JSON that does not fit. -/
  | bad (problem : Problem)
  /-- A symbol, with the version that the line gives. -/
  | good (version : Option Int)
  deriving DecidableEq, Repr

/-- The version that data gives, once it is known to fit. -/
def givenVersion (data : Data) (version : Int) : Option Int :=
  (data.field? "schema_version").map fun _ => version

/-- A way to read the symbol on a line. -/
structure LineReader where
  /-- The data that the bytes of a line stand for. -/
  decode : List UInt8 → Option Data
  /-- The symbol that data stands for. -/
  validate : Data → Except Mismatch SymbolArtifact

namespace LineReader

/-- A line is JSON that fits the schema. -/
def json : LineReader := ⟨decodeJson?, SymbolArtifact.ofData⟩

/-- Judge one line of the symbols. -/
def judge (reader : LineReader) (line : List UInt8) : LineVerdict :=
  let trimmed := Text.dropAround isBlankByte line
  if trimmed.isEmpty then .blank
  else
    match reader.decode trimmed with
    | none => .bad .invalidJson
    | some data =>
        match reader.validate data with
        | .error mismatch => .bad (.schemaMismatch mismatch)
        | .ok symbol => .good (givenVersion data symbol.version)

end LineReader

/-- A check of the symbols on its way. -/
structure SymbolsCheck where
  /-- What was found so far. -/
  report : Report := {}
  /-- Whether a missing version was reported. -/
  missingReported : Bool := false
  /-- Whether a wrong version was reported. -/
  mismatchReported : Bool := false

namespace SymbolsCheck

/-- Take the verdict on a line. -/
def take (check : SymbolsCheck) (strict : Bool) (finding : Problem → Finding)
    (verdict : LineVerdict) : SymbolsCheck :=
  match verdict with
  | .blank => check
  | .bad problem => { check with report := check.report ++ .error (finding problem) }
  | .good none =>
      if check.missingReported then check
      else
        { check with
          report := check.report ++ checkVersion strict none finding
          missingReported := true }
  | .good (some version) =>
      if version = schemaVersion || check.mismatchReported then check
      else
        { check with
          report := check.report ++ checkVersion strict (some version) finding
          mismatchReported := true }

/-- Take lines, numbered from `number` on. -/
def takeLines (check : SymbolsCheck) (reader : LineReader) (strict : Bool)
    (finding : Nat → Problem → Finding) (number : Nat) : List (List UInt8) → SymbolsCheck
  | [] => check
  | line :: lines =>
      (check.take strict (finding number) (reader.judge line)).takeLines reader strict finding
        (number + 1) lines

end SymbolsCheck

/-- Check the bytes of the symbols; no bytes mean that the file cannot be read. -/
def checkSymbols (path : String) (content : Option ByteArray) (strict : Bool) : Report :=
  match content with
  | none => .error { artifact := "symbols", problem := .unreadable, path := some path }
  | some bytes =>
      let finding (number : Nat) (problem : Problem) : Finding :=
        { artifact := "symbols", problem, path := some path, line := some number }
      (({} : SymbolsCheck).takeLines .json strict finding 1 (bytes.toList.splitOn 10)).report

/-- Check the bytes of the summary; no bytes mean that the file cannot be read. -/
def checkSummary (path : String) (content : Option ByteArray) (strict : Bool) : Report :=
  let finding (problem : Problem) : Finding :=
    { artifact := "summary", problem, path := some path }
  match content.bind fun bytes => decodeJson? bytes.toList with
  | none => .error (finding .invalidJson)
  | some (.object fields) =>
      match (SummaryArtifact.ofFields fields).toExcept SummaryArtifact.modelName with
      | .error mismatch => .error (finding (.schemaMismatch mismatch))
      | .ok summary => checkVersion strict (givenVersion (.object fields) summary.version) finding
  | some _ => .error (finding (.notObject summaryFile))

end Artifact

end CallGraph
