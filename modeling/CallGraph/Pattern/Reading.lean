import CallGraph.Pattern.Flags
import CallGraph.Pattern.Width

/-!
# A pattern being read

A backslash and the character after it are one token.  A reading holds the tokens that are left
and what is known of the groups; the first fault that is met ends it.
-/

namespace CallGraph.Pattern

/-- Why a pattern is refused. -/
inductive PatternFault where
  /-- The pattern is not well formed. -/
  | malformed
  /-- A repetition is counted, or a character numbered, beyond all bounds. -/
  | numberTooLarge
  /-- A number has too many digits to be read. -/
  | numberTooLong
  /-- The pattern is to be for ASCII and for all scripts. -/
  | scriptsConflict
  /-- Groups are nested too deeply. -/
  | tooDeep
  deriving DecidableEq, Repr

/-- A character of a pattern, or one after a backslash. -/
inductive Token where
  /-- A character that stands for itself or has a meaning. -/
  | plain (letter : Char)
  /-- A character after a backslash. -/
  | escaped (letter : Char)
  /-- A backslash at the end of the pattern. -/
  | dangling
  deriving DecidableEq, Repr

namespace Token

/-- The tokens of a pattern. -/
def ofChars : List Char → List Token
  | [] => []
  | ['\\'] => [.dangling]
  | '\\' :: letter :: rest => .escaped letter :: ofChars rest
  | letter :: rest => .plain letter :: ofChars rest

/-- The text of a token. -/
def text : Token → List Char
  | plain letter => [letter]
  | escaped letter => ['\\', letter]
  | dangling => ['\\']

end Token

/-- What is left of a pattern, and what is known of its groups. -/
structure Reading where
  /-- The tokens that are left. -/
  tokens : List Token
  /-- The number of tokens of the whole pattern. -/
  size : Nat
  /-- The number of the next group. -/
  nextGroup : Nat := 1
  /-- The widths of the closed groups. -/
  widths : List (Nat × Width) := []
  /-- The numbers of named groups. -/
  names : List (String × Nat) := []
  /-- The number of the next group when the current lookbehind began. -/
  behind : Option Nat := none
  /-- The groups that conditions ask for by number. -/
  conditions : List Nat := []
  /-- The scripts that were chosen for the whole pattern. -/
  scripts : List FlagLetter := []
  /-- Whether something is repeated. -/
  repeats : Bool := false
  /-- Whether a lookbehind has more than one width. -/
  uneven : Bool := false

/-- A part of the reading. -/
abbrev Parse := StateT Reading (Except PatternFault)

namespace Parse

/-- Refuse the pattern. -/
def refuse {α : Type} : Parse α := throw .malformed

/-- Go on with the given tokens.  A backslash at the end is refused as soon as it is next. -/
def goOn (tokens : List Token) : Parse Unit := do
  if tokens.head? = some .dangling then refuse
  modify fun reading => { reading with tokens }

/-- The next token, without taking it. -/
def peek : Parse (Option Token) := return (← get).tokens.head?

/-- Take the next token. -/
def next : Parse (Option Token) := do
  let tokens := (← get).tokens
  goOn tokens.tail
  return tokens.head?

/-- Take the next token if it is a given character. -/
def accept (letter : Char) : Parse Bool := do
  let tokens := (← get).tokens
  if tokens.head? = some (.plain letter) then
    goOn tokens.tail
    return true
  else return false

/-- Require a given character. -/
def expect (letter : Char) : Parse Unit := do
  if !(← accept letter) then refuse

/-- The characters at the start of some tokens that a test accepts, at most `limit`. -/
def plainRun (test : Char → Bool) : Nat → List Token → List Char
  | limit + 1, .plain letter :: rest =>
      if test letter then letter :: plainRun test limit rest else []
  | _, _ => []

/-- Take at most `limit` characters that a test accepts. -/
def takeWhile (test : Char → Bool) (limit : Nat) : Parse (List Char) := do
  let tokens := (← get).tokens
  let letters := plainRun test limit tokens
  goOn (tokens.drop letters.length)
  return letters

/-- Skip tokens up to a given character, which is skipped too; give them if it was there. -/
def skipPast (letter : Char) : Parse (Option (List Token)) := do
  let tokens := (← get).tokens
  let isOther (token : Token) : Bool := token != .plain letter && token != .dangling
  let rest := tokens.dropWhile isOther
  goOn rest
  if rest.isEmpty then return none
  goOn rest.tail
  return some (tokens.takeWhile isOther)

/-- The text up to a closing character, which is taken too; it may not be empty. -/
def upTo (closing : Char) : Parse String := do
  match ← skipPast closing with
  | none | some [] => refuse
  | some tokens => return String.ofList (tokens.flatMap Token.text)

end Parse

end CallGraph.Pattern
