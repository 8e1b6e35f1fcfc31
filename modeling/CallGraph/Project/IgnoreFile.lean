import CallGraph.Glob
import CallGraph.Pattern.Basic
import CallGraph.Text.Blank
import CallGraph.Text.Lines
import CallGraph.Tree.Path

/-!
# Ignore files

An ignore file lists rules for the files below its directory, one a line.  A rule is a shell
pattern in which stars and question marks pass over no slash; two stars do.  A rule with a slash
before its end counts from the directory of the file, any other at every depth.  A rule after an
exclamation mark readmits what an earlier one has ignored: where there is such a rule, the last
one that fits decides.

A rule becomes a name pattern, which is looked for in the path of a file below the directory.  It
is read when it is first needed.

Who selects files needs to know no more of an ignore file than on which paths it has something to
say, and which of them it ignores.  How that is read from its text may be left open.
-/

namespace CallGraph

/-- Why an ignore file cannot be used. -/
inductive IgnoreError where
  /-- Nothing is left of a rule. -/
  | nothingLeft
  /-- A rule has brackets that stand for no set. -/
  | badSet
  /-- A file does not lie below the directory. -/
  | outside
  /-- The file is not UTF-8. -/
  | notText
  deriving DecidableEq, Repr

/-- A rule of an ignore file. -/
structure IgnoreRule where
  /-- The name pattern for the paths it fits. -/
  pattern : String
  /-- Whether it readmits what it fits. -/
  negated : Bool
  deriving DecidableEq, Repr

namespace IgnoreRule

open Text

/-! ## Stars -/

/-- Two or more stars after a character other than a slash become one.  `skip` drops the stars
that still belong to a group. -/
def joinStarsAfter (skip : Bool) : List Char → List Char
  | [] => []
  | letter :: letters =>
      if skip && letter == '*' then joinStarsAfter true letters
      else if letter != '/' && ['*', '*'].isPrefixOf letters then
        letter :: '*' :: joinStarsAfter true letters
      else letter :: joinStarsAfter false letters

/-- What follows the stars that a text begins with. -/
def afterStars (letters : List Char) : List Char := letters.dropWhile (· == '*')

/-- Two or more stars before a character other than a slash become one.  `skip` drops the stars
that still belong to a group. -/
def joinStarsBefore (skip : Bool) : List Char → List Char
  | [] => []
  | letter :: letters =>
      if skip && letter == '*' then joinStarsBefore true letters
      else if letter == '*' && letters.head? == some '*' &&
          (afterStars letters).head?.any (· != '/') then
        '*' :: joinStarsBefore true letters
      else letter :: joinStarsBefore false letters

/-! ## The parts of a rule -/

/-- A rule on its way to a pattern. -/
structure Draft where
  /-- What is left of the rule. -/
  body : List Char
  /-- Whether it begins with an exclamation mark. -/
  negated : Bool
  /-- Whether it counts from the directory of the file. -/
  anchored : Bool
  /-- Whether it ends with a slash. -/
  directoryOnly : Bool

/-- A text that must not be empty. -/
def nonEmpty (letters : List Char) : Except IgnoreError (List Char) :=
  if letters.isEmpty then .error .nothingLeft else .ok letters

/-- A text without a slash at its beginning. -/
def dropSlash : List Char → List Char
  | '/' :: letters => letters
  | letters => letters

/-- A text without a slash at its end. -/
def dropLastSlash (letters : List Char) : List Char :=
  if letters.getLast? == some '/' then letters.dropLast else letters

/-- A text that begins with two stars counts at every depth. -/
def dropStars (draft : Draft) : Draft :=
  match draft.body with
  | '*' :: '*' :: letters => { draft with body := letters, anchored := false }
  | _ => draft

/-- A backslash before a number sign or an exclamation mark at the beginning is dropped. -/
def dropEscape : List Char → Except IgnoreError (List Char)
  | ['\\'] => .error .nothingLeft
  | '\\' :: letter :: letters =>
      .ok (if letter == '#' || letter == '!' then letter :: letters else '\\' :: letter :: letters)
  | letters => .ok letters

/-- Drop the spaces at the end, from the last one on, up to the third character.  A space after a
backslash stays, as do those before it, and the backslash goes. -/
def dropSpaces (dropping : Bool) : Nat → List Char → List Char
  | last + 2, letters =>
      if letters.getD (last + 2) 'x' != ' ' then letters
      else if letters.getD (last + 1) 'x' == '\\' then
        dropSpaces false last (letters.eraseIdx (last + 1))
      else dropSpaces dropping (last + 1) (if dropping then letters.take (last + 2) else letters)
  | _, letters => letters

/-- The parts of a rule. -/
def draft (negated : Bool) (body : List Char) : Except IgnoreError Draft := do
  let body ← nonEmpty body
  let draft : Draft :=
    { body := ← nonEmpty (dropSlash body)
      negated
      anchored := body.dropLast.contains '/'
      directoryOnly := body.getLast? == some '/' }
  let draft := dropStars draft
  let body ← nonEmpty draft.body
  let body ← nonEmpty (dropSlash body)
  let body ← nonEmpty (dropLastSlash body)
  let body ← dropEscape body
  return { draft with body := dropSpaces true (body.length - 1) body }

/-! ## The pattern of a rule -/

/-- The set of the inside of brackets, as a name pattern.  Slashes do not count in it. -/
def setPattern (inside : List Char) : Except IgnoreError (List Char) :=
  let letters := (inside.filter (· != '/')).flatMap fun letter =>
    if letter == '\\' then ['\\', '\\'] else [letter]
  match letters with
  | [] => .error .nothingLeft
  | '!' :: rest => .ok ('[' :: '^' :: rest ++ [']'])
  | '^' :: rest => .ok ('[' :: '\\' :: '^' :: rest ++ [']'])
  | letters => .ok ('[' :: letters ++ [']'])

/-- The name pattern of the body of a rule. -/
def bodyPattern (letters : List Char) : Except IgnoreError (List Char) :=
  match letters with
  | [] => .ok []
  | '*' :: '*' :: '/' :: rest => do return "(.*[/])?".toList ++ (← bodyPattern rest)
  | '*' :: '*' :: rest => do return ".*".toList ++ (← bodyPattern rest)
  | '*' :: rest => do return "[^/]*".toList ++ (← bodyPattern rest)
  | '?' :: rest => do return "[^/]".toList ++ (← bodyPattern rest)
  | '/' :: rest => do return "[/]".toList ++ (← bodyPattern rest)
  | '[' :: rest =>
      match _closed : Glob.bracketed? rest with
      | some (inside, after) => do return (← setPattern inside) ++ (← bodyPattern after)
      | none => do return "\\[".toList ++ (← bodyPattern rest)
  | letter :: rest => do return Pattern.escaped letter ++ (← bodyPattern rest)
termination_by letters.length
decreasing_by
  all_goals simp only [List.length_cons]
  · omega
  · omega
  · omega
  · omega
  · omega
  · have := Glob.length_lt_of_bracketed? _closed; omega
  · omega
  · omega

/-- The name pattern of a rule. -/
def Draft.pattern (draft : Draft) : Except IgnoreError String := do
  let body ← bodyPattern draft.body
  let start := if draft.anchored then "^" else "(^|[/])"
  let finish :=
    if !draft.directoryOnly then "$" else if draft.negated then "/$" else "($|\\/)"
  return start ++ String.ofList body ++ finish

/-- Read a line.  Blank lines, remarks and a lone slash are no rules. -/
def read (line : String) : Except IgnoreError (Option IgnoreRule) := do
  let letters := line.toList
  if letters.all isBlank || letters.head? == some '#' then return none
  let negated := letters.head? == some '!'
  let body :=
    joinStarsBefore false (joinStarsAfter false (if negated then letters.drop 1 else letters))
  if dropTrailing isBlank body == ['/'] then return none
  let draft ← draft negated body
  return some { pattern := ← draft.pattern, negated }

/-- Whether a rule fits a path. -/
def fitsPath (rule : IgnoreRule) (path : String) : Except IgnoreError Bool :=
  match Pattern.compile rule.pattern with
  | .ok matcher => .ok (matcher.occursIn path)
  | .error _ => .error .badSet

end IgnoreRule

/-- An ignore file. -/
structure IgnoreFile where
  /-- The directory it stands in. -/
  directory : Path
  /-- Its rules, first one first. -/
  rules : List IgnoreRule
  deriving DecidableEq, Repr

namespace IgnoreFile

/-- Read an ignore file. -/
def read (directory : Path) (text : String) : Except IgnoreError IgnoreFile := do
  let rules ← (Text.fileLines text).mapM IgnoreRule.read
  return { directory := directory.collapse, rules := rules.filterMap id }

/-- The first of some rules that fits a path. -/
def firstFit (path : String) : List IgnoreRule → Except IgnoreError (Option IgnoreRule)
  | [] => .ok none
  | rule :: rules => do
      if ← rule.fitsPath path then return some rule
      firstFit path rules

/-- Whether an ignore file has something to say on a path: the path lies below its directory, or
it has no rules. -/
def concerns (file : IgnoreFile) (path : Path) : Bool :=
  file.rules.isEmpty || (path.collapse.relativeTo? file.directory).isSome

/-- Whether a path is ignored. -/
def ignores (file : IgnoreFile) (path : Path) : Except IgnoreError Bool :=
  if file.rules.isEmpty then .ok false
  else
    match path.collapse.relativeTo? file.directory with
    | none => .error .outside
    | some below => do
        if file.rules.any IgnoreRule.negated then
          let rule ← firstFit below.render file.rules.reverse
          return rule.any fun rule => !rule.negated
        else return (← firstFit below.render file.rules).isSome

end IgnoreFile

/-- What is asked of an ignore file. -/
structure IgnoreRules where
  /-- Whether it has something to say on a path. -/
  concerns : Path → Bool
  /-- Whether a path is ignored, which may not be known. -/
  ignores : Path → Except IgnoreError Bool

/-- A way to read ignore files. -/
structure IgnoreReader where
  /-- What is asked of the file with a text in a directory. -/
  read : Path → String → Except IgnoreError IgnoreRules

/-- Ignore files as they are described above. -/
def IgnoreReader.standard : IgnoreReader where
  read directory text :=
    (IgnoreFile.read directory text).map fun file => ⟨file.concerns, file.ignores⟩

end CallGraph
