import CallGraph.Pattern.Node

/-!
# The width of a pattern

The least and the greatest length of what a pattern matches.  Both are capped, the least one below
the greatest, so that what may be of any length never counts as being of one length.
-/

namespace CallGraph.Pattern

/-- The least and the greatest length of what a pattern matches. -/
structure Width where
  /-- The least length. -/
  least : Nat
  /-- The greatest length. -/
  most : Nat
  deriving DecidableEq, Repr

namespace Width

/-- The greatest length that is told apart from others; it stands for all beyond it. -/
def limit : Nat := 4294967295

/-- A width within the caps. -/
def capped (least most : Nat) : Width := ⟨min least (limit - 1), min most limit⟩

/-- A single length. -/
def exactly (length : Nat) : Width := ⟨length, length⟩

/-- One after another. -/
def append (left right : Width) : Width :=
  capped (left.least + right.least) (left.most + right.most)

/-- One or another. -/
def join (left right : Width) : Width :=
  ⟨min left.least right.least, max left.most right.most⟩

/-- A number of times. -/
def times (width : Width) (least : Nat) (most : Option Nat) : Width :=
  capped (width.least * least) (width.most * most.getD limit)

/-- The length, if there is only one. -/
def length? (width : Width) : Option Nat :=
  if width.least = width.most then some width.least else none

end Width

/-- The lengths of what a pattern matches, given those of the groups it refers to. -/
def Node.width {α : Type} (groups : List (Nat × Width)) : Node α → Width
  | .empty | .anchor _ | .look .. => .exactly 0
  | .single _ => .exactly 1
  | .sequence first second => (first.width groups).append (second.width groups)
  | .choice first second => (first.width groups).join (second.width groups)
  | .group _ body | .atomic body => body.width groups
  | .reference number _ => (groups.lookup number).getD (.exactly 0)
  | .conditional _ present absent => (present.width groups).join (absent.width groups)
  | .repetition least most _ body => (body.width groups).times least most

end CallGraph.Pattern
