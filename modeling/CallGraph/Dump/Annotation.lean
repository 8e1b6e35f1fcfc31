import CallGraph.Text.Blank
import CallGraph.Text.Digit

/-!
# Edge lists of a dump

A dump writes the ends of edges as symbols with an ordinal, each with annotations in parentheses
that may be nested: `list_push/12 (1073741824 (estimated locally),1.00 per call)`.  Reading the
list takes the annotations away, innermost first, then the ordinals, and splits at blanks.
-/

namespace CallGraph.Dump

open Text

/-- Whether a character is a parenthesis. -/
def isParenthesis (c : Char) : Bool := c == '(' || c == ')'

/-- What follows the closing parenthesis if the first parenthesis of a text is a closing one. -/
def afterClosing? : List Char → Option (List Char)
  | [] => none
  | letter :: rest =>
      if letter == ')' then some rest
      else if letter == '(' then none
      else afterClosing? rest

theorem length_afterClosing? {letters rest : List Char}
    (closed : afterClosing? letters = some rest) :
    rest.length < letters.length := by
  induction letters with
  | nil => simp [afterClosing?] at closed
  | cons letter letters induction =>
      rw [afterClosing?] at closed
      split at closed
      · cases closed
        simp
      · split at closed
        · cases closed
        · have shorter := induction closed
          simp only [List.length_cons]
          omega

/-- Replace every innermost pair of parentheses, with what it holds, by one space. -/
def blankInnermost : List Char → List Char
  | [] => []
  | letter :: rest =>
      if letter == '(' then
        match _closed : afterClosing? rest with
        | some after => ' ' :: blankInnermost after
        | none => letter :: blankInnermost rest
      else letter :: blankInnermost rest
termination_by letters => letters.length
decreasing_by
  · have shorter := length_afterClosing? _closed
    simp only [List.length_cons]
    omega
  · simp
  · simp

theorem length_blankInnermost_le (letters : List Char) :
    (blankInnermost letters).length ≤ letters.length := by
  fun_induction blankInnermost letters with
  | case1 => simp
  | case2 letter rest _ after closed induction =>
      have shorter := length_afterClosing? closed
      simp only [List.length_cons]
      omega
  | case3 letter rest _ _ induction => simpa using induction
  | case4 letter rest _ induction => simpa using induction

/-- Either nothing changes or the text gets shorter. -/
theorem length_blankInnermost_lt (letters : List Char)
    (changed : blankInnermost letters ≠ letters) :
    (blankInnermost letters).length < letters.length := by
  fun_induction blankInnermost letters with
  | case1 => simp at changed
  | case2 letter rest _ after closed _ =>
      have shorter := length_afterClosing? closed
      have bound := length_blankInnermost_le after
      simp only [List.length_cons]
      omega
  | case3 letter rest _ _ induction =>
      have rest_changed : blankInnermost rest ≠ rest := fun same => changed (by rw [same])
      simpa using induction rest_changed
  | case4 letter rest _ induction =>
      have rest_changed : blankInnermost rest ≠ rest := fun same => changed (by rw [same])
      simpa using induction rest_changed

/-- Take away annotations, innermost first, until none is left. -/
def blankAnnotations (letters : List Char) : List Char :=
  if _stable : blankInnermost letters = letters then letters
  else blankAnnotations (blankInnermost letters)
termination_by letters.length
decreasing_by exact length_blankInnermost_lt letters _stable

/-- Take away every slash that digits follow, together with these digits. -/
def dropOrdinals : List Char → List Char
  | [] => []
  | letter :: rest =>
      if letter == '/' && (rest.head?.any isDigit) then dropOrdinals (rest.dropWhile isDigit)
      else letter :: dropOrdinals rest
termination_by letters => letters.length
decreasing_by
  · have bound := (List.dropWhile_sublist isDigit (l := rest)).length_le
    simp only [List.length_cons]
    omega
  · simp

/-- The bare symbols of an edge list. -/
def edgeTokens (value : String) : List String :=
  (wordsOf (dropOrdinals (blankAnnotations value.toList))).map String.ofList

end CallGraph.Dump
