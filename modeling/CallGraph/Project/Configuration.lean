import CallGraph.Project.Workspace
import CallGraph.Text.Utf8

/-!
# The settings of a project

A project may have a file of settings in its root.  The directory of the artifacts that it names
must stay below the root, links followed.
-/

namespace CallGraph

/-- The settings of the project at a root, as its file gives them. -/
def Settings.load (root : Path) : Work Settings := do
  let path := root.child Settings.fileName
  if !(← Work.isFile path) then return {}
  let bytes ← Work.read path
  match Text.decode? bytes with
  | none => throw .settingsNotText
  | some text =>
      let settings ← Work.demand .settings (Settings.parse path.render text)
      Work.report [.settingsLoaded path.render]
      return settings

/-- Where the artifacts go that a project wants in the directory of the given name. -/
def resolveOutputDir (root : Path) (outputDir : String) : Work Path := do
  if outputDir.isEmpty then throw (.settings .outputDirEmpty)
  let path := Path.parse outputDir
  if outputDir.toList.head? == some '~' || path.isAbsolute then
    throw (.settings .outputDirAbsolute)
  let root ← Work.resolve root
  let directory ← Work.resolve (root.join path)
  if (directory.relativeTo? root).isNone then throw (.settings (.outputDirEscapes outputDir))
  return directory

end CallGraph
