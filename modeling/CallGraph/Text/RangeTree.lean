/-!
# Ranges of code points

A class of characters is given by closed ranges of code points in increasing order.  A long list of
ranges is searched as a tree, so that a look-up meets only a few of them.
-/

namespace CallGraph.Text

/-- Membership of a code point in a list of closed ranges, which are given in increasing order. -/
def inRanges : List (Nat × Nat) → Nat → Bool
  | [], _ => false
  | (first, last) :: ranges, code =>
      if code < first then false else code ≤ last || inRanges ranges code

/-- Closed ranges of code points: those below a range are on its left, those above it on its
right. -/
inductive RangeTree where
  /-- No range. -/
  | empty
  /-- The range from `first` to `last` between others. -/
  | node (below : RangeTree) (first last : Nat) (above : RangeTree)

namespace RangeTree

/-- Membership of a code point in one of the ranges. -/
def holds : RangeTree → Nat → Bool
  | empty, _ => false
  | node below first last above, code =>
      if code < first then below.holds code else code ≤ last || above.holds code

/-- A tree of ranges in increasing order, with at most so many levels. -/
def ofListWithin : Nat → List (Nat × Nat) → RangeTree
  | 0, _ => empty
  | levels + 1, ranges =>
      match ranges.drop (ranges.length / 2) with
      | [] => empty
      | (first, last) :: above =>
          node (ofListWithin levels (ranges.take (ranges.length / 2))) first last
            (ofListWithin levels above)

/-- The tree of ranges that are given in increasing order. -/
def ofList (ranges : List (Nat × Nat)) : RangeTree := ofListWithin ranges.length ranges

end RangeTree

end CallGraph.Text
