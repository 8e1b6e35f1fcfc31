import CallGraph.Glob
import CallGraph.Project.Workspace
import CallGraph.Text.Blank

/-!
# Patterns for paths

A pattern for paths has one part for each name, with a slash between them.  A part with a star, a
question mark or a bracket is a shell pattern for the names in a directory; a pair of stars alone
stands for the directory and all those below it; any other part is a name.  A slash at the end
stands for the directory itself.

All parts but the last lead to directories.  Links are followed on the way, apart from those that a
pair of stars passes.
-/

namespace CallGraph

/-- A part of a pattern for paths. -/
inductive PathPart where
  /-- A name. -/
  | exactly (name : String)
  /-- The names that a shell pattern fits. -/
  | fitting (pattern : String)
  /-- The directory and all those below it. -/
  | anyDepth
  /-- The directory itself. -/
  | itself
  deriving DecidableEq, Repr

/-- A pattern for paths, as the parts for their names. -/
abbrev PathPattern := List PathPart

namespace PathPart

/-- Whether a text is a shell pattern and not only a name. -/
def isShellPattern (text : String) : Bool :=
  text.toList.any fun letter => letter == '*' || letter == '?' || letter == '['

/-- Read a part.  A pair of stars must stand alone. -/
def parse? (text : String) : Option PathPart :=
  if text = "**" then some .anyDepth
  else if Text.contains text "**" then none
  else if isShellPattern text then some (.fitting text)
  else some (.exactly text)

end PathPart

namespace PathPattern

/-- Read a pattern for paths. -/
def parse? (text : String) : Option PathPattern := do
  let parts ← (Path.parse text).names.mapM PathPart.parse?
  return if text.toList.getLast? = some '/' then parts ++ [.itself] else parts

/-- Whether a path can stand for a part that other parts follow: it must lead to a directory if
there are any. -/
def canLeadOn (parts : PathPattern) (path : Path) : Work Bool :=
  if parts.isEmpty then pure true else Work.isDirectory path

/-- The paths from a directory on that a pattern fits. -/
def select : PathPattern → Path → Work (List Path)
  | [], path => pure [path]
  | .itself :: _, path => pure [path]
  | .exactly name :: parts, path => do
      let next := path.child name
      if ← Work.holds next then
        if ← canLeadOn parts next then return ← select parts next
      return []
  | .fitting pattern :: parts, path => do
      let names := (← Work.tree).namesIn path
      let found ← (names.map path.child).mapM fun next => do
        if ← canLeadOn parts next then
          if Glob.matchesText pattern next.name then return ← select parts next
        return []
      return found.flatten
  | .anyDepth :: parts, path => do
      let below := ((← Work.tree).below path).filter fun other => other.2 = .directory
      let found ← (path :: below.map Prod.fst).mapM fun next => select parts next
      return found.flatten.eraseDups

/-- The paths below a directory, at any depth, that a pattern fits. -/
def selectBelow (pattern : PathPattern) (directory : Path) : Work (List Path) := do
  if ← Work.isDirectory directory then select (.anyDepth :: pattern) directory else return []

end PathPattern

end CallGraph
