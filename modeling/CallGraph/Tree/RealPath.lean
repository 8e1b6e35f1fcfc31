import CallGraph.Tree.Basic

/-!
# Real paths

The real path of a path leads to the same place without links and double dots.  It is found name by
name: a link is replaced by the real path of its target, and two dots take the name before them
away.  Names that lead nowhere stay, and so do those after a link that leads back to itself.

The number of links does not matter here.  A path has no real path only if following it is endless
all the same, that is if a link that leads back to itself is left in it.
-/

namespace CallGraph.Tree

/-- The links met so far, with the places they lead to; a link without one is being followed. -/
abbrev LinkMap := List (Place × Option Place)

/-- What becomes of the names of a path. -/
inductive Settled where
  /-- A place without links. -/
  | reached (place : Place)
  /-- The names up to a link that leads back to itself, and the names after it as they are. -/
  | circular (names : List String)
  /-- A name that nothing can have. -/
  | unnamed

/-- How a link is followed: from a place along names, given the links met so far. -/
abbrev Following := LinkMap → Place → List String → Settled × LinkMap

/-- Replace the links among names that lead on from a place. -/
def settleAlong (tree : Tree) (follow : Following) : Following
  | known, place, [] => (.reached place, known)
  | known, place, name :: names =>
      if name = ".." then tree.settleAlong follow known place.dropLast names
      else if !isName name then (.unnamed, known)
      else
        let here := place ++ [name]
        match tree.get? here with
        | some (.link target) =>
            match known.lookup here with
            | some (some place) => tree.settleAlong follow known place names
            | some none => (.circular (here ++ names), known)
            | none =>
                let start := if target.isAbsolute then [] else place
                match follow ((here, none) :: known) start target.names with
                | (.reached place, known) =>
                    tree.settleAlong follow ((here, some place) :: known) place names
                | (.circular stuck, known) => (.circular (stuck ++ names), known)
                | (.unnamed, known) => (.unnamed, known)
        | _ => tree.settleAlong follow known here names

/-- Replace links, at most so many inside one another. -/
def settle (tree : Tree) : Nat → Following
  | 0 => tree.settleAlong fun known _ names => (.circular names, known)
  | depth + 1 => tree.settleAlong (tree.settle depth)

/-- The real path of a path; its names may lead nowhere.  No more links can be inside one another
than there are entries, because none of them is followed while it is being followed. -/
def resolve (tree : Tree) (path : Path) : Except TreeError Path :=
  let checked (real : Path) : Except TreeError Path :=
    match tree.walk .strict real with
    | .error .endless => .error .endless
    | .error .badName => .error .badName
    | _ => .ok real
  match (tree.settle tree.entries.length [] [] path.names).1 with
  | .reached place => checked ⟨"/", place⟩
  | .circular names => checked (Path.collapse ⟨"/", names⟩)
  | .unnamed => .error .badName

end CallGraph.Tree
