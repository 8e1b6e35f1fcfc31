import CallGraph.Text.Blank
import CallGraph.Text.Quoted

/-!
# Visibility of a symbol in a dump

A visibility is a free text of which four words count, wherever they stand in it.  Some
combinations contradict each other.
-/

namespace CallGraph.Dump

/-- The words of a visibility that count. -/
structure Flags where
  /-- Every compilation unit sees the symbol. -/
  exported : Bool
  /-- The compiler made the symbol up. -/
  artificial : Bool
  /-- The symbol is defined in another compilation unit. -/
  external : Bool
  /-- The definition gives way to another one. -/
  weak : Bool
  deriving DecidableEq, Repr

/-- Words of a visibility that contradict each other. -/
inductive FlagsError where
  /-- An artificial symbol is not public. -/
  | artificialPublic (text : String)
  /-- An external symbol is public. -/
  | externalPrivate (text : String)
  /-- A weak symbol is public. -/
  | weakPrivate (text : String)
  deriving DecidableEq, Repr

namespace FlagsError

open Text in
/-- What is said of a contradiction. -/
def message : FlagsError → String
  | artificialPublic text => s!"Visibility {quote text} is both artificial and public"
  | externalPrivate text => s!"Visibility {quote text} is external but not public"
  | weakPrivate text => s!"Visibility {quote text} is weak but not public"

end FlagsError

namespace Flags

/-- The words that occur in a visibility. -/
def scan (text : String) : Flags where
  exported := Text.contains text "public"
  artificial := Text.contains text "artificial"
  external := Text.contains text "external"
  weak := Text.contains text "weak"

/-- Read a visibility, refusing words that contradict each other. -/
def read (text : String) : Except FlagsError Flags :=
  let flags := scan text
  if flags.artificial && flags.exported then .error (.artificialPublic text)
  else if flags.external && !flags.exported then .error (.externalPrivate text)
  else if flags.weak && !flags.exported then .error (.weakPrivate text)
  else .ok flags

end Flags

end CallGraph.Dump
