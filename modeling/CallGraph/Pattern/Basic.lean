import CallGraph.Pattern.Match
import CallGraph.Pattern.Reader
import CallGraph.Symbol.Record
import CallGraph.Text.Quoted

/-!
# Patterns for names

A name pattern is read once and then looked for anywhere in a name.  An ignore list names symbols
by their keys or by patterns for their names.
-/

namespace CallGraph

/-- A pattern that was refused. -/
structure PatternError where
  /-- The pattern. -/
  pattern : String
  /-- Why it was refused. -/
  fault : Pattern.PatternFault
  deriving DecidableEq, Repr

/-- What is said of a pattern that was refused.  Why it was refused is left out. -/
def PatternError.message (error : PatternError) : String :=
  s!"Invalid name pattern {Text.quote error.pattern}"

namespace Pattern

/-- A demand on one character under the script of the whole pattern, if case does not matter for
it. -/
def Single.uncased? (ascii : Bool) : Single → Option Single
  | .set negated members folding =>
      if members.any fun member => CharTest.memberIsFolded folding member then none
      else
        let adapted := members.map fun member =>
          match member with
          | .chars kind => .chars { kind with ascii }
          | other => other
        some (.set negated adapted .exact)
  | _ => none

/-- Prepare a pattern for matching.  A match begins only with a character of the set that the
pattern begins with, where classes are those of the whole pattern. -/
def Outline.matcher (outline : Outline) : Matcher :=
  { body := outline.body.map fun single => .ofTest (.ofSingle single)
    groups := outline.groups
    first := (outline.body.leading?.bind (Single.uncased? outline.flags.ascii)).map
      fun single => .ofTest (.ofSingle single) }

/-- Read a pattern. -/
def compile (pattern : String) : Except PatternError Matcher :=
  match Outline.read pattern with
  | .ok outline => .ok outline.matcher
  | .error fault => .error ⟨pattern, fault⟩

/-- A character as a pattern that stands for it. -/
def escaped (letter : Char) : List Char :=
  if "()[]\x7b\x7d?*+-|^$\\.&~# \t\n\r\x0b\x0c".toList.contains letter then ['\\', letter]
  else [letter]

/-- Read several patterns; the first one that is refused counts. -/
def compileAll (patterns : List String) : Except PatternError (List Matcher) :=
  patterns.mapM compile

/-- Whether one of several patterns occurs in a name. -/
def matchesAny (patterns : List Matcher) (name : String) : Bool :=
  patterns.any fun pattern => pattern.occursIn name

/-- Whether an ignore list names a symbol, by its key or by a pattern for its name. -/
def isIgnored (ignore : List String) (patterns : List Matcher) (key : Key) (name : String) : Bool :=
  ignore.contains key || matchesAny patterns name

end Pattern

end CallGraph
