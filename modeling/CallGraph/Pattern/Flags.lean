import CallGraph.Pattern.Node

/-!
# Flags of a pattern

What can be switched for a whole pattern or for a group, and the letters that switch it.
-/

namespace CallGraph.Pattern

/-- What can be switched for a pattern or a group. -/
structure Flags where
  /-- Classes and case are those of ASCII. -/
  ascii : Bool := false
  /-- Case is ignored. -/
  ignoreCase : Bool := false
  /-- Anchors know lines. -/
  multiline : Bool := false
  /-- The dot matches line feeds too. -/
  dotAll : Bool := false
  /-- Blanks and comments do not count. -/
  verbose : Bool := false
  /-- Nothing may be repeated. -/
  rigid : Bool := false
  deriving DecidableEq, Repr

/-- How case is treated under the flags. -/
def Flags.folding (flags : Flags) : Folding :=
  if !flags.ignoreCase then .exact else if flags.ascii then .ascii else .full

/-- The letters that stand for flags. -/
inductive FlagLetter where
  /-- Classes and case of ASCII. -/
  | ascii
  /-- Classes and case of all scripts. -/
  | unicode
  /-- Case is ignored. -/
  | ignoreCase
  /-- Anchors know lines. -/
  | multiline
  /-- The dot matches line feeds too. -/
  | dotAll
  /-- Blanks and comments do not count. -/
  | verbose
  /-- Nothing may be repeated; this holds for a whole pattern only. -/
  | rigid
  deriving DecidableEq, Repr

namespace FlagLetter

/-- The flag of a letter. -/
def ofChar? : Char → Option FlagLetter
  | 'a' => some ascii
  | 'u' => some unicode
  | 'i' => some ignoreCase
  | 'm' => some multiline
  | 's' => some dotAll
  | 'x' => some verbose
  | 't' => some rigid
  | _ => none

/-- Whether a flag chooses between ASCII and all scripts. -/
def choosesScript : FlagLetter → Bool
  | ascii | unicode => true
  | _ => false

/-- Switch a flag. -/
def switch (flag : FlagLetter) (on : Bool) (flags : Flags) : Flags :=
  match flag with
  | ascii => { flags with ascii := on }
  | unicode => { flags with ascii := !on }
  | ignoreCase => { flags with ignoreCase := on }
  | multiline => { flags with multiline := on }
  | dotAll => { flags with dotAll := on }
  | verbose => { flags with verbose := on }
  | rigid => { flags with rigid := on }

end FlagLetter

/-- Switch several flags. -/
def switchAll (letters : List FlagLetter) (on : Bool) (flags : Flags) : Flags :=
  letters.foldl (fun flags letter => letter.switch on flags) flags

end CallGraph.Pattern
