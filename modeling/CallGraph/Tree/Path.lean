/-!
# Paths

A path is where it starts from and the names that follow.  Repeated slashes and names that are a
single dot do not count; two dots are kept, because what they mean depends on links.  Two leading
slashes start somewhere else than one, and three or more start where one does.
-/

namespace CallGraph

/-- A path: where it starts from and the names that follow. -/
structure Path where
  /-- Empty for a relative path, otherwise one or two slashes. -/
  anchor : String := ""
  /-- The names, outermost first. -/
  names : List String := []
  deriving DecidableEq, Repr, Inhabited

namespace Path

/-- The names between slashes that count. -/
def namesOf (letters : List Char) : List String :=
  ((letters.splitOn '/').map String.ofList).filter fun name => name != "" && name != "."

/-- Read a path. -/
def parse (text : String) : Path :=
  let letters := text.toList
  let slashes := (letters.takeWhile (· == '/')).length
  let anchor := if slashes = 0 then "" else if slashes = 2 then "//" else "/"
  ⟨anchor, namesOf letters⟩

/-- Write a path; the path without names is a dot. -/
def render (path : Path) : String :=
  if path.anchor.isEmpty && path.names.isEmpty then "."
  else path.anchor ++ "/".intercalate path.names

/-- Whether a path starts from the top. -/
def isAbsolute (path : Path) : Bool := !path.anchor.isEmpty

/-- Follow a second path from the end of the first. -/
def join (base next : Path) : Path :=
  if next.isAbsolute then next else { base with names := base.names ++ next.names }

/-- Go one name further. -/
def child (path : Path) (name : String) : Path :=
  { path with names := path.names ++ [name] }

/-- The last name of a path. -/
def name (path : Path) : String := path.names.getLast?.getD ""

/-- What leads from `base` to a path, if the path lies below it by its names alone. -/
def relativeTo? (path base : Path) : Option Path :=
  if path.anchor == base.anchor && base.names.isPrefixOf path.names then
    some { names := path.names.drop base.names.length }
  else none

/-- A path with every pair of dots taken as a step back along its names. -/
def collapse (path : Path) : Path :=
  { path with
    names := path.names.foldl (fun names name =>
      if name = ".." then names.dropLast else names ++ [name]) [] }

end Path

end CallGraph
