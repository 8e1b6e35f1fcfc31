/-!
# Maps between upper and lower case

The upper-case and the lower-case letters of a script mostly stand in runs, so that one shift
leads from each letter of a run to its counterpart.  A map between the cases is a list of such
runs, and leaves every other character as it is.
-/

namespace CallGraph.Text

/-- Every `step`-th code point from `first` to `last` is led to its counterpart by `shift`. -/
structure CaseRun where
  /-- The first code point of the run. -/
  first : Nat
  /-- The last code point of the run. -/
  last : Nat
  /-- The distance between neighbouring members. -/
  step : Nat
  /-- What leads from a member to its counterpart. -/
  shift : Int

namespace CaseRun

/-- Whether a code point is a member of a run. -/
def holds (run : CaseRun) (code : Nat) : Bool :=
  run.first ≤ code && code ≤ run.last && (code - run.first) % run.step == 0

/-- What a code point becomes under a member's shift. -/
def shifted (run : CaseRun) (code : Nat) : Nat :=
  ((code : Int) + run.shift).toNat

/-- The counterpart of a code point; the runs are given in increasing order. -/
def image : List CaseRun → Nat → Nat
  | [], code => code
  | run :: runs, code =>
      if code < run.first then code
      else if run.holds code then run.shifted code
      else image runs code

/-- The first and the last member of a run between two code points. -/
def between? (run : CaseRun) (first last : Nat) : Option (Nat × Nat) :=
  let skipped := (max first run.first - run.first + run.step - 1) / run.step
  let start := run.first + skipped * run.step
  let stop := min last run.last
  if start ≤ stop then some (start, stop - (stop - start) % run.step) else none

end CaseRun

end CallGraph.Text
