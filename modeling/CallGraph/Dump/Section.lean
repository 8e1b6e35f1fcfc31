import CallGraph.Text.Blank
import CallGraph.Text.Lines

/-!
# The symbol table section

A dump holds many sections.  The one that is read begins after its title, may have one blank line
there, and ends at the next blank line.  Trailing blanks do not count.
-/

namespace CallGraph.Dump

open Text

/-- The title of the section that is read. -/
def sectionTitle : String := "Initial Symbol table:"

/-- The lines up to the first blank one, trimmed. -/
def untilBlank (lines : List String) : List String :=
  (lines.map trimRight).takeWhile fun line => !line.isEmpty

/-- What follows the title of the section. -/
def afterTitle : List String → List String
  | [] => []
  | line :: lines => if trimRight line == sectionTitle then lines else afterTitle lines

/-- The trimmed lines of the symbol table section. -/
def symbolSection (lines : List String) : List String :=
  match afterTitle lines with
  | [] => []
  | line :: rest =>
      if (trimRight line).isEmpty then untilBlank rest else untilBlank (line :: rest)

end CallGraph.Dump
