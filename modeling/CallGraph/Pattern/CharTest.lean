import CallGraph.Pattern.Node
import CallGraph.Text.Blank
import CallGraph.Text.Digit
import CallGraph.Text.UpperCase
import CallGraph.Text.Word

/-!
# Tests for one character

What a pattern demands of one character, prepared for matching.  Where case is ignored, the
character is put into lower case first and then looked up among code points in lower case.

Sets keep the characters beyond the first plane as they are written.  A literal in such a set is
therefore found only if it is in lower case, while a range that reaches beyond the first plane
also holds a character whose upper case lies in it.
-/

namespace CallGraph.Pattern

open Text

/-- Every `step`-th code point from `first` to `last`. -/
structure CodeRun where
  /-- The first code point. -/
  first : Nat
  /-- The last code point. -/
  last : Nat
  /-- The distance between neighbouring members. -/
  step : Nat := 1
  deriving DecidableEq, Repr

namespace CodeRun

/-- A single code point. -/
def point (code : Nat) : CodeRun := { first := code, last := code }

/-- Whether a code point is a member of a run. -/
def holds (run : CodeRun) (code : Nat) : Bool :=
  run.first ≤ code && code ≤ run.last && (code - run.first) % run.step == 0

end CodeRun

/-- A test for one character. -/
structure CharTest where
  /-- What is done to a character before it is looked up. -/
  folding : Folding
  /-- Whether the characters that are not found are accepted. -/
  negated : Bool
  /-- The code points to be found. -/
  runs : List CodeRun
  /-- Ranges in which the upper case of a character is found too. -/
  raised : List (Nat × Nat) := []
  /-- Classes whose characters are found. -/
  classes : List CharClass := []
  deriving DecidableEq, Repr

/-- The lower case of a code point under a folding. -/
def Folding.lower (folding : Folding) (code : Nat) : Nat :=
  match folding with
  | .exact => code
  | .full => lowerCode code
  | .ascii => if 0x41 ≤ code && code ≤ 0x5A then code + 32 else code

/-- Whether a folding takes a character between two code points for another one. -/
def Folding.changesSome (folding : Folding) (first last : Nat) : Bool :=
  let meets (low high : Nat) : Bool := first ≤ high && low ≤ last
  match folding with
  | .exact => false
  | .full => someCased first last
  | .ascii => meets 0x41 0x5A || meets 0x61 0x7A

/-- Whether a code point belongs to a class. -/
def CharClass.holds (kind : CharClass) (code : Nat) : Bool :=
  let c := Char.ofNat code
  let known :=
    (!kind.ascii || (code < 0x80 && !(0x1C ≤ code && code ≤ 0x1F))) &&
      match kind.category with
      | .digit => isDigit c
      | .space => isBlank c
      | .word => isWordChar c
  known != kind.negated

namespace CharTest

/-- Whether a character passes a test. -/
def accepts (test : CharTest) (letter : Char) : Bool :=
  let code := test.folding.lower letter.toNat
  let found :=
    test.runs.any (·.holds code) ||
      test.raised.any (fun range =>
        let upper := upperCode code
        range.1 ≤ upper && upper ≤ range.2) ||
      test.classes.any (·.holds code)
  found != test.negated

/-- The last code point of the first plane. -/
def firstPlaneEnd : Nat := 0xFFFF

/-- The code points in lower case that stand for those between two when case is ignored. -/
def foldedRuns (folding : Folding) (first last : Nat) : List CodeRun :=
  match folding with
  | .exact => [{ first, last }]
  | .ascii =>
      let start := max first 0x41
      let stop := min last 0x5A
      if start ≤ stop then [{ first, last }, { first := start + 32, last := stop + 32 }]
      else [{ first, last }]
  | .full =>
      let images := lowerRuns.filterMap fun run =>
        (run.between? first last).map fun (start, stop) =>
          { first := run.shifted start, last := run.shifted stop, step := run.step : CodeRun }
      let runs := { first, last } :: images
      let variants := (caseVariants.filter fun entry => runs.any (·.holds entry.1)).flatMap (·.2)
      runs ++ variants.map .point

/-- The runs of a member of a set. -/
def memberRuns (folding : Folding) : Member → List CodeRun
  | .literal code =>
      if code ≤ firstPlaneEnd then foldedRuns folding (folding.lower code) (folding.lower code)
      else [.point code]
  | .range first last =>
      if last ≤ firstPlaneEnd then foldedRuns folding first last
      else if first ≤ firstPlaneEnd then
        foldedRuns folding first firstPlaneEnd ++ [{ first, last }]
      else [{ first, last }]
  | .chars _ => []

/-- Whether case matters for a member of a set. -/
def memberIsCased (folding : Folding) : Member → Bool
  | .literal code => code > firstPlaneEnd || folding.changesSome code code
  | .range first last => last > firstPlaneEnd || folding.changesSome first last
  | .chars _ => false

/-- Whether a folding takes a member of a set for another character, as far as that is known
without looking beyond the first plane. -/
def memberIsFolded (folding : Folding) : Member → Bool
  | .literal code => folding.changesSome code code
  | .range first last =>
      folding != .exact && (last > firstPlaneEnd || folding.changesSome first last)
  | .chars _ => false

/-- The range of a member of a set that reaches beyond the first plane. -/
def wideRange? : Member → Option (Nat × Nat)
  | .range first last => if last > firstPlaneEnd then some (first, last) else none
  | _ => none

/-- The class that a member of a set is. -/
def charClass? : Member → Option CharClass
  | .chars kind => some kind
  | _ => none

/-- The test of a set.  Case is ignored only if it matters for one of the members. -/
def ofSet (negated : Bool) (members : List Member) (folding : Folding) : CharTest :=
  let classes := members.filterMap charClass?
  if folding != .exact && members.any (memberIsCased folding) then
    { folding, negated, classes
      runs := members.flatMap (memberRuns folding)
      raised := members.filterMap wideRange? }
  else
    { folding := .exact, negated, classes
      runs := members.flatMap (memberRuns .exact) }

/-- The test of a literal. -/
def ofLiteral (negated : Bool) (code : Nat) (folding : Folding) : CharTest :=
  if folding.changesSome code code then
    let lower := folding.lower code
    { folding, negated, runs := foldedRuns folding lower lower }
  else { folding := .exact, negated, runs := [.point code] }

/-- The test of what a pattern demands of one character. -/
def ofSingle : Single → CharTest
  | .literal negated code folding => ofLiteral negated code folding
  | .set negated members folding => ofSet negated members folding
  | .any true => { folding := .exact, negated := true, runs := [] }
  | .any false => { folding := .exact, negated := true, runs := [.point 10] }

end CharTest

/-- A test for one character, with its answers for the first code points at hand. -/
structure QuickTest where
  /-- The test. -/
  test : CharTest
  /-- The answers for ASCII characters. -/
  answers : Array Bool

namespace QuickTest

/-- Prepare a test. -/
def ofTest (test : CharTest) : QuickTest :=
  { test, answers := (Array.range 0x80).map fun code => test.accepts (Char.ofNat code) }

/-- Whether a character passes a test. -/
def accepts (quick : QuickTest) (letter : Char) : Bool :=
  match quick.answers[letter.toNat]? with
  | some answer => answer
  | none => quick.test.accepts letter

end QuickTest

end CallGraph.Pattern
