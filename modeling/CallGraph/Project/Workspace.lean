import CallGraph.Dump.Reader
import CallGraph.Graph.Search
import CallGraph.Pattern.Basic
import CallGraph.Project.IgnoreFile
import CallGraph.Settings
import CallGraph.Tree.RealPath

/-!
# Work on a tree

All work on a project happens in a workspace: the tree with its files, and the journal of what was
done.  Work may fail.  It then says why, and the workspace stands as the failure left it.
-/

namespace CallGraph

/-- Why work ends without an answer. -/
inductive Failure where
  /-- The settings cannot be used. -/
  | settings (error : SettingsError)
  /-- The settings are not UTF-8. -/
  | settingsNotText
  /-- A dump cannot be read. -/
  | dump (error : Dump.DumpError)
  /-- An ignore file cannot be used. -/
  | ignore (error : IgnoreError)
  /-- A suffix of dump files has a pair of stars. -/
  | badSuffix
  /-- A file cannot be read or written. -/
  | tree (error : TreeError)
  /-- The links of a path lead nowhere else than to links. -/
  | endlessLinks
  /-- A path lies outside the directory of a project. -/
  | outsideRoot
  /-- A home directory is not known. -/
  | unknownHome
  /-- There are no artifacts to verify. -/
  | noArtifacts (path : Path)
  /-- The artifacts to verify are no directory. -/
  | artifactsNotDirectory (path : Path)
  /-- An argument gives nothing where a text is needed. -/
  | argumentMissing
  /-- A name pattern was refused. -/
  | pattern (error : PatternError)
  /-- A search has met an edge that leads nowhere. -/
  | search (error : SearchError)

/-- What is said of a failure. -/
def Failure.message : Failure → String
  | settings error => error.message
  | settingsNotText => "The settings are not UTF-8"
  | dump error => error.message
  | ignore .nothingLeft => "Nothing is left of a rule of an ignore file"
  | ignore .badSet => "A rule of an ignore file has a bad set"
  | ignore .outside => "A path lies outside the directory of an ignore file"
  | ignore .notText => "An ignore file is not UTF-8"
  | badSuffix => "A pair of stars must stand alone in a pattern for files"
  | tree .absent => "No such file or directory"
  | tree .notDirectory => "Not a directory"
  | tree .isDirectory => "Is a directory"
  | tree .taken => "File exists"
  | tree .endless => "Too many levels of symbolic links"
  | tree .badName => "A name holds a null character"
  | tree .tooLong => "File name too long"
  | endlessLinks => "Links lead in a circle"
  | outsideRoot => "A path lies outside the project"
  | unknownHome => "Could not determine home directory."
  | noArtifacts path => s!"Artifacts directory does not exist: {path.render}"
  | artifactsNotDirectory path => s!"Artifacts path is not a directory: {path.render}"
  | argumentMissing => "An argument gives no text"
  | pattern error => error.message
  | search error => error.message

/-- A tree and what was reported of the work on it. -/
structure Workspace where
  /-- The tree. -/
  tree : Tree
  /-- What was reported, oldest first. -/
  journal : List Event := []

/-- Work in a workspace. -/
abbrev Work := EStateM Failure Workspace

namespace Work

/-- Report events. -/
def report (events : List Event) : Work Unit :=
  modify fun workspace => { workspace with journal := workspace.journal ++ events }

/-- The tree. -/
def tree : Work Tree := do return (← get).tree

/-- A result that may be a failure. -/
def demand {ε α : Type} (cause : ε → Failure) (outcome : Except ε α) : Work α :=
  match outcome with
  | .ok result => pure result
  | .error error => throw (cause error)

/-- Change the tree. -/
def change {α : Type} (action : Tree.Action α) : Work α := fun workspace =>
  match action workspace.tree with
  | .ok result tree => .ok result { workspace with tree }
  | .error error tree => .error (.tree error) { workspace with tree }

/-- What a path leads to. -/
def look (path : Path) : Work (Option Entry) := do demand .tree ((← tree).look path)

/-- Whether a path leads to something. -/
def holds (path : Path) : Work Bool := do return (← look path).isSome

/-- Whether a path leads to a directory. -/
def isDirectory (path : Path) : Work Bool := do return (← look path) = some .directory

/-- Whether a path leads to a file. -/
def isFile (path : Path) : Work Bool := do
  match ← look path with
  | some (.file _) => return true
  | _ => return false

/-- Whether the last name of a path is a link. -/
def isLink (path : Path) : Work Bool := do demand .tree ((← tree).isLink path)

/-- The bytes of the file that a path leads to. -/
def read (path : Path) : Work ByteArray := do demand .tree ((← tree).read path)

/-- The real path of a directory that is there. -/
def enter (path : Path) : Work Path := do
  let place ← demand .tree ((← tree).walk .strict path)
  if (← tree).get? place = some .directory then return ⟨"/", place⟩
  else throw (.tree .notDirectory)

/-- Keep what a test accepts. -/
def keep {α : Type} (test : α → Work Bool) : List α → Work (List α)
  | [] => pure []
  | first :: others => do
      if ← test first then return first :: (← keep test others)
      else keep test others

/-- Why a path cannot be resolved. -/
def resolveFailure : TreeError → Failure
  | .endless => .endlessLinks
  | error => .tree error

/-- The path without links and double dots. -/
def resolve (path : Path) : Work Path := do
  demand resolveFailure ((← tree).resolve path)

end Work

end CallGraph
