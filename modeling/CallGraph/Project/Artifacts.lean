import CallGraph.Artifact.Validation
import CallGraph.Project.Build

/-!
# The artifacts of a project

A project has three artifacts in one directory: the persisted table, the symbols and the summary.
They are written from the table of the project, checked by themselves, and verified by writing
them again elsewhere and comparing every file.
-/

namespace CallGraph

/-- Write a text to a file. -/
def writeText (path : Path) (text : String) : Work Unit :=
  Work.change (Tree.write path (Text.encode text))

/-- Write the artifacts of a table to a directory, which is made if it is not there. -/
def writeArtifacts (table : Table) (directory : Path) : Work Unit := do
  Work.change (Tree.requireDirectories directory)
  writeText (directory.child Artifact.tableFile) table.format
  writeText (directory.child Artifact.symbolsFile) table.symbolsText
  writeText (directory.child Artifact.summaryFile) table.summaryText

/-- The first name that leads from a root to a directory, or nothing if the directory is not
below the root. -/
def outputName (root directory : Path) : String :=
  match directory.relativeTo? root with
  | some below => below.names.head?.getD ""
  | none => ""

/-- What was generated. -/
structure Generated where
  /-- The table. -/
  table : Table
  /-- The directory of the artifacts. -/
  directory : Path

namespace Generated

/-- The paths of the artifacts. -/
def files (generated : Generated) : List Path :=
  [Artifact.tableFile, Artifact.symbolsFile, Artifact.summaryFile].map generated.directory.child

end Generated

/-- Generate the artifacts of the project at a root, in the given directory or in that of the
settings.  The directory itself is not searched for dumps. -/
def generate (root : Path) (directory : Option Path) (settings : Option Settings)
    (reader : IgnoreReader := .standard) : Work Generated := do
  let settings ← match settings with
    | some settings => pure settings
    | none => Settings.load root
  let directory ← match directory with
    | some directory => pure directory
    | none => resolveOutputDir root settings.outputDir
  let realDirectory ← Work.resolve directory
  let name := outputName (← Work.resolve root) realDirectory
  let table ← buildProject root settings (if name.isEmpty then settings.outputDir else name) reader
  writeArtifacts table directory
  Work.report [.artifactsWritten table.size directory.render]
  return { table, directory }

/-! ## Checking -/

/-- The bytes of the file at a path, if they can be read.  A path that no file can have is a
failure. -/
def readBytes? (path : Path) : Work (Option ByteArray) := do
  match (← Work.tree).read path with
  | .ok bytes => return some bytes
  | .error .badName => throw (.tree .badName)
  | .error _ => return none

/-- Read the persisted table at a path; a directory stands for its table. -/
def loadTable (path : Path) : Work TableReading := do
  let path := if ← Work.isDirectory path then path.child Artifact.tableFile else path
  return Artifact.readTable path.render (← readBytes? path)

/-- Check the persisted table at a path. -/
def validateTable (path : Path) : Work Report := do
  let reading ← loadTable path
  if let some table := reading.table then Work.report [table.soundnessEvent]
  return Artifact.checkTable path.render reading

/-- Check an artifact if it is there. -/
def validateFile (artifact : String) (path : Path) (check : Work Report) : Work Report := do
  if ← Work.holds path then check
  else return .error { artifact, problem := .fileMissing, path := some path.render }

/-- Check the artifacts in a directory. -/
def validateArtifacts (directory : Path) (strict : Bool) : Work Report := do
  let finding (problem : Problem) : Finding :=
    { artifact := "artifacts_dir", problem, path := some directory.render }
  if !(← Work.holds directory) then return .error (finding .noDirectory)
  if !(← Work.isDirectory directory) then return .error (finding .notDirectory)
  let table := directory.child Artifact.tableFile
  let symbols := directory.child Artifact.symbolsFile
  let summary := directory.child Artifact.summaryFile
  let tableReport ← validateFile "table" table (validateTable table)
  let symbolsReport ← validateFile "symbols" symbols do
    return Artifact.checkSymbols symbols.render (← readBytes? symbols) strict
  let summaryReport ← validateFile "summary" summary do
    return Artifact.checkSummary summary.render (← readBytes? summary) strict
  return tableReport ++ symbolsReport ++ summaryReport

/-! ## Verifying -/

/-- How artifacts compare with those that are generated afresh. -/
structure Comparison where
  /-- Files in both places with other contents. -/
  mismatches : List String
  /-- Files that are not generated. -/
  missing : List String
  /-- Files that are generated and were not there. -/
  extra : List String
  deriving DecidableEq, Repr

/-- Whether there is no difference. -/
def Comparison.ok (comparison : Comparison) : Bool :=
  comparison.mismatches.isEmpty && comparison.missing.isEmpty && comparison.extra.isEmpty

/-- The files below a directory with their contents, by their paths below it, in order. -/
def filesBelow (directory : Path) : Work (List (String × ByteArray)) := do
  let paths := ((← Work.tree).below directory).map Prod.fst
  let found ← paths.mapM fun path => do return (path, ← Work.look path)
  let files := found.filterMap fun (path, entry) =>
    match entry, path.relativeTo? directory with
    | some (.file bytes), some below => some (below.render, bytes)
    | _, _ => none
  return files.mergeSort fun left right => left.1 ≤ right.1

/-- The files of one list whose paths are not in another. -/
def filesWithout (files others : List (String × ByteArray)) : List String :=
  (files.filter fun file => (others.lookup file.1).isNone).map Prod.fst

/-- Compare files that were found with files that were generated. -/
def Comparison.of (found generated : List (String × ByteArray)) : Comparison :=
  { mismatches := (found.filter fun file =>
      (generated.lookup file.1).any fun bytes => bytes != file.2).map Prod.fst
    missing := filesWithout found generated
    extra := filesWithout generated found }

/-- Generate artifacts in a directory of their own, which is removed afterwards, and compare them
with those that are there. -/
def compareAfresh (root directory scratch : Path) (settings : Option Settings)
    (reader : IgnoreReader) : Work Comparison := do
  Work.change (Tree.requireDirectories scratch)
  let _ ← generate root (some scratch) settings reader
  return .of (← filesBelow directory) (← filesBelow scratch)

/-- Whether the artifacts in a directory are those that the project at a root gives.  The fresh
ones go to `scratch`, which is removed whatever happens. -/
def verify (root directory scratch : Path) (settings : Option Settings)
    (reader : IgnoreReader := .standard) : Work Comparison := do
  if !(← Work.holds directory) then throw (.noArtifacts directory)
  if !(← Work.isDirectory directory) then throw (.artifactsNotDirectory directory)
  let comparison ← fun workspace =>
    match compareAfresh root directory scratch settings reader workspace with
    | .ok comparison after => .ok comparison { after with tree := after.tree.erase scratch.names }
    | .error failure after => .error failure { after with tree := after.tree.erase scratch.names }
  if !comparison.mismatches.isEmpty then
    Work.report [.artifactsDiffer comparison.mismatches]
  return comparison

end CallGraph
