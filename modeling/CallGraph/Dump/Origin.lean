import CallGraph.Symbol.Key
import CallGraph.Text.Digit
import CallGraph.Tree.Path

/-!
# The origin of a dump

The compiler names a dump after the compilation unit, the number and the kind letter of the pass,
and a suffix: `src/list.c.000i.cgraph`.  The origin is what is left of the path below the scanned
directory when suffix and pass tag are taken away.
-/

namespace CallGraph.Dump

open Text

/-- A text without a final part, if it ends with it. -/
def dropSuffix (suffix letters : List Char) : List Char :=
  if suffix.isSuffixOf letters then letters.take (letters.length - suffix.length) else letters

/-- What is left of a text, read backwards, when it begins with a pass tag, read backwards: a
small letter, digits, a point. -/
def afterPassTag? : List Char → Option (List Char)
  | [] => none
  | letter :: rest =>
      let digits := rest.takeWhile isDigit
      match rest.dropWhile isDigit with
      | '.' :: before =>
          if 'a' ≤ letter && letter ≤ 'z' && !digits.isEmpty then some before else none
      | _ => none

/-- A text without the pass tag at its end.  A final line feed may follow the tag and stays. -/
def dropPassTag (letters : List Char) : List Char :=
  match letters.reverse with
  | '\n' :: backwards => (('\n' :: (afterPassTag? backwards).getD backwards)).reverse
  | backwards => ((afterPassTag? backwards).getD backwards).reverse

/-- The origin of a dump file found below a directory. -/
def originOf (path root : Path) (suffix : String) : Origin :=
  let below := if path.isAbsolute then (path.relativeTo? root).getD path else path
  String.ofList (dropPassTag (dropSuffix suffix.toList below.render.toList))

end CallGraph.Dump
