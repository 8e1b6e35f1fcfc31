import CallGraph.Tree.Path

/-!
# Directory trees

A tree says what stands at each place below the top: a file with its bytes, a directory, or a link
that leads elsewhere.  Walking along a path follows the links it meets; a walk that meets too many
of them is endless.  Names and paths have a greatest length, counted in bytes.  All paths lead from
the top.

Changes to a tree may fail, and then say what stands in the way and how far they came.
-/

namespace CallGraph

/-- The names that lead from the top to a place, none of them a link. -/
abbrev Place := List String

/-- What stands at a place. -/
inductive Entry where
  /-- A file with its bytes. -/
  | file (bytes : ByteArray)
  /-- A link to a path, which leads from the directory of the link if it is relative. -/
  | link (target : Path)
  /-- A directory. -/
  | directory

instance : DecidableEq Entry
  | .file left, .file right =>
      match ByteArray.instDecidableEq left right with
      | isTrue same => isTrue (by rw [same])
      | isFalse different => isFalse fun equal => different (by cases equal; rfl)
  | .link left, .link right =>
      match decEq left right with
      | isTrue same => isTrue (by rw [same])
      | isFalse different => isFalse fun equal => different (by cases equal; rfl)
  | .directory, .directory => isTrue rfl
  | .file _, .link _ | .file _, .directory | .link _, .file _ | .link _, .directory
  | .directory, .file _ | .directory, .link _ => isFalse nofun

/-- A directory tree. -/
structure Tree where
  /-- What stands at every place but the top, which is a directory. -/
  entries : List (Place × Entry) := []

/-- What stands in the way of a walk or a change. -/
inductive TreeError where
  /-- A name leads nowhere. -/
  | absent
  /-- A name is followed by another one and leads to no directory. -/
  | notDirectory
  /-- A directory stands where a file is wanted. -/
  | isDirectory
  /-- Something stands where a directory is to be made. -/
  | taken
  /-- The walk meets too many links. -/
  | endless
  /-- A name holds the character that ends names. -/
  | badName
  /-- A name or a path is longer than any can be. -/
  | tooLong
  deriving DecidableEq, Repr

namespace Tree

/-- What stands at a place. -/
def get? (tree : Tree) (place : Place) : Option Entry :=
  if place.isEmpty then some .directory else tree.entries.lookup place

/-- Put an entry at a place. -/
def put (tree : Tree) (place : Place) (entry : Entry) : Tree :=
  ⟨tree.entries.filter (fun other => other.1 != place) ++ [(place, entry)]⟩

/-- Take away what stands at a place, with all that is below. -/
def erase (tree : Tree) (place : Place) : Tree :=
  ⟨tree.entries.filter fun other => !place.isPrefixOf other.1⟩

/-- The places below a place, each with what stands there. -/
def entriesBelow (tree : Tree) (place : Place) : List (Place × Entry) :=
  tree.entries.filter fun other => place.isPrefixOf other.1 && other.1 != place

/-! ## Walking -/

/-- Which names of a path may lead nowhere. -/
inductive Lenience where
  /-- None of them. -/
  | strict
  /-- The last one. -/
  | lastName
  deriving DecidableEq, Repr

/-- How a walk without links goes on. -/
inductive Stride where
  /-- It ends at a place. -/
  | arrived (place : Place)
  /-- It meets a link, and goes on from a place along other names. -/
  | turned (place : Place) (names : List String)
  /-- It cannot go on. -/
  | stopped (error : TreeError)

/-- Whether something can have a name. -/
def isName (name : String) : Bool := !name.toList.contains '\x00'

/-- How many bytes a name may have. -/
def nameLimit : Nat := 255

/-- How many bytes a path may have. -/
def pathLimit : Nat := 4095

/-- Whether a name is longer than any can be. -/
def isTooLong (name : String) : Bool := nameLimit < name.utf8ByteSize

/-- What is wrong with a path wherever it leads. -/
def flaw? (path : Path) : Option TreeError :=
  if !path.names.all isName then some .badName
  else if pathLimit < path.render.utf8ByteSize then some .tooLong
  else none

/-- Go along names from a place up to the first link.  Two dots lead to the directory above. -/
def stride (tree : Tree) (lenience : Lenience) (place : Place) : List String → Stride
  | [] => .arrived place
  | name :: names =>
      if tree.get? place ≠ some .directory then
        .stopped (if (tree.get? place).isSome then .notDirectory else .absent)
      else if name = ".." then tree.stride lenience place.dropLast names
      else if isTooLong name then .stopped .tooLong
      else
        match tree.get? (place ++ [name]) with
        | some (.link target) =>
            .turned (if target.isAbsolute then [] else place) (target.names ++ names)
        | some _ => tree.stride lenience (place ++ [name]) names
        | none =>
            if lenience = .lastName ∧ names = [] then .arrived (place ++ [name])
            else .stopped .absent

/-- Go along names from a place, following at most so many links. -/
def walkFrom (tree : Tree) (lenience : Lenience) :
    Nat → Place → List String → Except TreeError Place
  | links, place, names =>
      match tree.stride lenience place names with
      | .arrived place => .ok place
      | .stopped error => .error error
      | .turned place names =>
          match links with
          | 0 => .error .endless
          | links + 1 => tree.walkFrom lenience links place names

/-- How many links a walk may follow. -/
def linkLimit : Nat := 40

/-- Where a path leads. -/
def walk (tree : Tree) (lenience : Lenience) (path : Path) : Except TreeError Place :=
  match flaw? path with
  | some error => .error error
  | none => tree.walkFrom lenience linkLimit [] path.names

/-- The directory that the last name of a path stands in, with that name.  The top stands in
none. -/
def holder (tree : Tree) (path : Path) : Except TreeError (Option (Place × String)) :=
  match flaw? path, path.names.getLast? with
  | some error, _ => .error error
  | none, none => .ok none
  | none, some name =>
      match tree.walkFrom .strict linkLimit [] path.names.dropLast with
      | .error error => .error error
      | .ok place =>
          if tree.get? place ≠ some .directory then .error .notDirectory
          else if isTooLong name then .error .tooLong
          else .ok (some (place, name))

/-! ## Looking -/

/-- The answer to what a path leads to.  A path that is too long has none; any other that does not
lead to a place leads to nothing. -/
def answer {α : Type} (nothing : α) : Except TreeError α → Except TreeError α
  | .error .tooLong => .error .tooLong
  | .error _ => .ok nothing
  | .ok found => .ok found

/-- What a path leads to. -/
def look (tree : Tree) (path : Path) : Except TreeError (Option Entry) :=
  answer none ((tree.walk .strict path).map tree.get?)

/-- Whether the last name of a path is a link. -/
def isLink (tree : Tree) (path : Path) : Except TreeError Bool :=
  answer false <| (tree.holder path).map fun holder =>
    match holder with
    | some (place, name) =>
        match tree.get? (place ++ [name]) with
        | some (.link _) => true
        | _ => false
    | none => false

/-- The bytes of the file that a path leads to. -/
def read (tree : Tree) (path : Path) : Except TreeError ByteArray :=
  match tree.walk .strict path with
  | .error error => .error error
  | .ok place =>
      match tree.get? place with
      | some (.file bytes) => .ok bytes
      | some _ => .error .isDirectory
      | none => .error .absent

/-- What stands below a directory, through directories but not through links, each with its
path. -/
def below (tree : Tree) (directory : Path) : List (Path × Entry) :=
  match tree.walk .strict directory with
  | .error _ => []
  | .ok place =>
      (tree.entriesBelow place).map fun other =>
        ({ directory with names := directory.names ++ other.1.drop place.length }, other.2)

/-- The names in a directory. -/
def namesIn (tree : Tree) (directory : Path) : List String :=
  match tree.walk .strict directory with
  | .error _ => []
  | .ok place =>
      (tree.entriesBelow place).filterMap fun other =>
        match other.1.drop place.length with
        | [name] => some name
        | _ => none

/-! ## Changes -/

/-- A change, which may fail and says how it leaves the tree. -/
abbrev Action := EStateM TreeError Tree

/-- Write a file, in place of an earlier one; the directory must be there. -/
def write (path : Path) (bytes : ByteArray) : Action Unit := do
  let tree ← get
  match tree.walk .lastName path with
  | .error error => throw error
  | .ok place =>
      if tree.get? place = some .directory then throw .isDirectory
      set (tree.put place (.file bytes))

/-- Make an entry inside a directory that is there, where nothing stands. -/
def makeEntry (path : Path) (entry : Entry) : Action Unit := do
  let tree ← get
  match tree.holder path with
  | .error error => throw error
  | .ok none => throw .taken
  | .ok (some (place, name)) =>
      if name = ".." ∨ (tree.get? (place ++ [name])).isSome then throw .taken
      set (tree.put (place ++ [name]) entry)

/-- Make a directory. -/
def makeDirectory (path : Path) : Action Unit := makeEntry path .directory

/-- Make a link to a path. -/
def makeLink (path : Path) (target : String) : Action Unit :=
  if !isName target then throw .badName
  else if target.isEmpty then throw .absent
  else if pathLimit < target.utf8ByteSize then throw .tooLong
  else makeEntry path (.link (Path.parse target))

/-- That a directory cannot be made does not matter if it is there. -/
def unlessDirectory (path : Path) (error : TreeError) : Action Unit := fun tree =>
  match tree.look path with
  | .ok (some .directory) => .ok () tree
  | .ok _ => .error error tree
  | .error other => .error other tree

/-- Make a directory unless it is there. -/
def requireDirectory (path : Path) : Action Unit := fun tree =>
  match makeDirectory path tree with
  | .ok _ tree => .ok () tree
  | .error error tree => unlessDirectory path error tree

/-- Make a directory and those above it, as far as they are not there.  The names are given from
the last one on. -/
def requireNames : List String → Action Unit
  | [] => pure ()
  | name :: above => fun tree =>
      let path : Path := ⟨"/", (name :: above).reverse⟩
      match makeDirectory path tree with
      | .ok _ tree => .ok () tree
      | .error .absent tree =>
          match requireNames above tree with
          | .ok _ tree => requireDirectory path tree
          | .error error tree => .error error tree
      | .error error tree => unlessDirectory path error tree

/-- Make a directory and those above it, as far as they are not there. -/
def requireDirectories (path : Path) : Action Unit := requireNames path.names.reverse

/-- Take away what stands at a path, with all that is below.  A link is taken away itself. -/
def remove (path : Path) : Action Unit := do
  let tree ← get
  match tree.holder path with
  | .error error => throw error
  | .ok none => throw .isDirectory
  | .ok (some (place, name)) =>
      if (tree.get? (place ++ [name])).isNone then throw .absent
      set (tree.erase (place ++ [name]))

end Tree

end CallGraph
