import CallGraph.CommandLine.Run

/-!
# The tree of the machine

The program works on a tree in memory.  Before it runs, the tree is filled with what stands below
the current directory and at the paths that the command names; afterwards the files that have
changed are written.
-/

namespace CallGraph.CommandLine

/-- The values of a command that name paths. -/
def Command.pathValues : Command → List Value
  | .build root directory | .validate root directory | .verify root directory =>
      root :: directory.toList
  | .ask question => question.root :: question.table.toList

/-- The paths that a command names. -/
def Command.paths (command : Command) : List String :=
  command.pathValues.filterMap fun value =>
    match value with
    | .text path => some path
    | .nothing => none

/-- Put directories above a place where nothing stands yet. -/
def putAbove (tree : Tree) (place : Place) : Tree :=
  ((List.range place.length).map place.take).foldl
    (fun tree above => if (tree.get? above).isSome then tree else tree.put above .directory) tree

/-- Put an entry at a place, with the directories above it. -/
def putBelow (tree : Tree) (place : Place) (entry : Entry) : Tree :=
  (putAbove tree place).put place entry

/-- The files of one tree that are not the same in another. -/
def newFiles (before after : Tree) : List (Place × ByteArray) :=
  after.entries.filterMap fun other =>
    match other.2 with
    | .file bytes => if before.get? other.1 = some other.2 then none else some (other.1, bytes)
    | _ => none

/-- Take in what stands at a path, which is a link if it is not the real path to it. -/
partial def takeIn (tree : Tree) (path : String) : IO Tree := do
  try
    let real ← IO.FS.realPath path
    let place := (Path.parse path).collapse.names
    let realPath := Path.parse real.toString
    let tree := if place = realPath.names then tree else putBelow tree place (.link realPath)
    if realPath.names ≠ [] ∧ (tree.get? realPath.names).isSome then return tree
    if ← real.isDir then
      let mut tree := if realPath.names = [] then tree else putBelow tree realPath.names .directory
      for entry in ← real.readDir do
        tree ← takeIn tree entry.path.toString
      return tree
    else return putBelow tree realPath.names (.file (← IO.FS.readBinFile real))
  catch _ => return tree

/-- Write the files that have changed. -/
def putOut (before after : Tree) : IO Unit := do
  for (place, bytes) in newFiles before after do
    IO.FS.createDirAll (Path.render ⟨"/", place.dropLast⟩)
    IO.FS.writeBinFile (Path.render ⟨"/", place⟩) bytes

end CallGraph.CommandLine
