import CallGraph.Project.PathPattern
import CallGraph.Text.Utf8

/-!
# Selecting the dumps

The dumps of a project are the files below its root whose paths end as the settings say, apart
from those in the directory of the artifacts, those that ignore files or the settings exclude, and
links.  They are taken in the order of their paths below the root, so that nothing depends on how
a directory is listed.
-/

namespace CallGraph

/-- Which ignore files count. -/
inductive IgnoreScope where
  /-- The one of the root. -/
  | rootOnly
  /-- All of them. -/
  | nested
  deriving DecidableEq, Repr

/-- The name of ignore files. -/
def ignoreFileName : String := ".gitignore"

/-- Which files below a root to take. -/
structure Selection where
  /-- The root. -/
  root : Path
  /-- The directory below the root that is left out; none if it is empty. -/
  outputDir : String := ".cgraph"
  /-- The rules of the ignore files that count, with their scope. -/
  ignoreFiles : IgnoreScope × List IgnoreRules := (.rootOnly, [])
  /-- Shell patterns of which one must fit, if there are any. -/
  included : List String := []
  /-- Shell patterns of which none may fit. -/
  excluded : List String := []

namespace Selection

/-- Read an ignore file of a tree. -/
def readIgnoreFile (reader : IgnoreReader) (path : Path) : Work IgnoreRules := do
  let bytes ← Work.read path
  match Text.decode? bytes with
  | none => throw (.ignore .notText)
  | some text =>
      let directory := { path with names := path.names.dropLast }
      Work.demand .ignore (reader.read directory text)

/-- Whether a path leads to a file and is no link itself. -/
def isOwnFile (path : Path) : Work Bool := do
  if ← Work.isFile path then return !(← Work.isLink path)
  else return false

/-- The ignore files below a root, in the order of their paths. -/
def ignoreFilesBelow (root : Path) : Work (List Path) := do
  let paths := ((← Work.tree).below root).map Prod.fst
  let files ← Work.keep isOwnFile (paths.filter fun path => path.name == ignoreFileName)
  return files.mergeSort fun left right => left.render ≤ right.render

/-- Read the ignore files that count for a root. -/
def readIgnoreFiles (root : Path) (scope : IgnoreScope) (reader : IgnoreReader := .standard) :
    Work (List IgnoreRules) := do
  match scope with
  | .rootOnly =>
      let path := root.child ignoreFileName
      if ← Work.isFile path then return [← readIgnoreFile reader path] else return []
  | .nested => (← ignoreFilesBelow root).mapM (readIgnoreFile reader)

/-- Whether a path is ignored by one of some ignore files.  Where all of them count, those of other
directories are passed over. -/
def isIgnored (scope : IgnoreScope) (path : Path) : List IgnoreRules → Except IgnoreError Bool
  | [] => .ok false
  | file :: files => do
      if scope == .nested && !file.concerns path then isIgnored scope path files
      else if ← file.ignores path then return true
      else isIgnored scope path files

/-- Whether a path leads to a place below the root, links followed. -/
def leadsInside (root path : Path) : Work Bool := do
  let real ← Work.resolve path
  return (real.relativeTo? (← Work.resolve root)).isSome

/-- Whether the settings take a path below the root. -/
def takes (selection : Selection) (below : String) : Bool :=
  (selection.included.isEmpty ||
    selection.included.any fun pattern => Glob.matchesText pattern below) &&
  !selection.excluded.any fun pattern => Glob.matchesText pattern below

/-- Whether a file is selected. -/
def accepts (selection : Selection) (path : Path) : Work Bool := do
  if !(← isOwnFile path) then return false
  if !(← leadsInside selection.root path) then return false
  match path.relativeTo? selection.root with
  | none => throw .outsideRoot
  | some below =>
      if !selection.outputDir.isEmpty && below.names.head? == some selection.outputDir then
        return false
      if ← Work.demand .ignore (isIgnored selection.ignoreFiles.1 path selection.ignoreFiles.2) then
        return false
      return selection.takes below.render

end Selection

/-- A request for the dumps below a directory. -/
structure Scan where
  /-- The directory. -/
  root : Path
  /-- How the names of dumps end. -/
  suffix : String := ".cgraph"
  /-- The directory below the root that is left out. -/
  outputDir : String := ".cgraph"
  /-- Shell patterns of which one must fit, if there are any. -/
  included : List String := []
  /-- Shell patterns of which none may fit. -/
  excluded : List String := []
  /-- Which ignore files count. -/
  scope : IgnoreScope := .rootOnly
  /-- How ignore files are read. -/
  reader : IgnoreReader := .standard

namespace Scan

/-- The path below the root as a text. -/
def below (scan : Scan) (path : Path) : String :=
  ((path.relativeTo? scan.root).getD path).render

/-- The dumps, in the order of their paths below the directory. -/
def dumps (scan : Scan) : Work (List Path) := do
  let selection : Selection :=
    { root := scan.root
      outputDir := scan.outputDir
      ignoreFiles := (scan.scope, ← Selection.readIgnoreFiles scan.root scan.scope scan.reader)
      included := scan.included
      excluded := scan.excluded }
  match PathPattern.parse? ("*" ++ scan.suffix) with
  | none => throw .badSuffix
  | some pattern =>
      let found ← Work.keep selection.accepts (← pattern.selectBelow scan.root)
      let sorted := found.mergeSort fun left right => scan.below left ≤ scan.below right
      Work.report [.filesMatched sorted.length scan.root.render]
      return sorted

end Scan

end CallGraph
