import CallGraph.Dump.Origin
import CallGraph.Project.Configuration
import CallGraph.Project.Selection
import CallGraph.Table.Resolution

/-!
# Building the table of a project

The dumps of a project are read one after another into one table, which is then resolved.  All of
them are taken from the tree before the first one is read.
-/

namespace CallGraph

/-- The lines of the symbol table section of a dump file. -/
def readSection (path : Path) : Work (List String) := do
  let bytes ← Work.read path
  return Dump.symbolSection (Text.fileLines (Text.decodeLenient bytes))

/-- Read the section of a dump file into a table. -/
def readDump (root : Path) (suffix : String) (table : Table) (dump : Path × List String) :
    Work Table := do
  let origin := Dump.originOf dump.1 root suffix
  Work.report [.fileParsed dump.1.render dump.2.length origin]
  match Dump.readLinesInto table origin dump.2 with
  | .ok _ reader =>
      Work.report reader.journal
      return reader.table
  | .error error reader =>
      Work.report reader.journal
      throw (.dump error)

/-- The table of some dump files, read in the given order. -/
def buildFromFiles (root : Path) (suffix : String) (files : List Path) : Work Table := do
  let sections ← files.mapM readSection
  let table ← (files.zip sections).foldlM (readDump root suffix) ∅
  Work.report table.resolveEvents
  return table.resolve

/-- The table of the project at a root. -/
def buildProject (root : Path) (settings : Settings) (outputDir : String)
    (reader : IgnoreReader := .standard) : Work Table := do
  let files ← Scan.dumps
    { root
      suffix := settings.dumpSuffix
      outputDir
      included := settings.included
      excluded := settings.excluded
      scope := if settings.nestedIgnore then .nested else .rootOnly
      reader }
  Work.report [.filesFound files.length root.render]
  let table ← buildFromFiles root settings.dumpSuffix files
  Work.report [.tableBuilt table.size]
  return table

end CallGraph
