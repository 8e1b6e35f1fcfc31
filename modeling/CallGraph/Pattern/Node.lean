/-!
# Name patterns

The structure of a pattern.  A pattern is matched by trying its alternatives in order; a
repetition takes as much as it can and gives back, or takes as little as it can, or gives nothing
back.  Where case is ignored, that is noted at every place it concerns, so that a pattern needs no
other context.

What a pattern demands of one character is a parameter of the structure: it is read as a literal
or a set and matched as a test that is prepared once.
-/

namespace CallGraph.Pattern

/-- How a place of a pattern treats upper and lower case. -/
inductive Folding where
  /-- Case counts. -/
  | exact
  /-- Case is ignored in all scripts. -/
  | full
  /-- Case is ignored among ASCII letters. -/
  | ascii
  deriving DecidableEq, Repr

/-- The classes of characters that have a letter of their own. -/
inductive Category where
  /-- Decimal digits. -/
  | digit
  /-- Blanks. -/
  | space
  /-- Letters, numbers and the underscore. -/
  | word
  deriving DecidableEq, Repr

/-- A class of characters as a pattern names it. -/
structure CharClass where
  /-- The class. -/
  category : Category
  /-- Whether all other characters are meant. -/
  negated : Bool
  /-- Whether the class is restricted to ASCII. -/
  ascii : Bool
  deriving DecidableEq, Repr

/-- A member of a character set. -/
inductive Member where
  /-- One code point. -/
  | literal (code : Nat)
  /-- All code points between two, both included. -/
  | range (first last : Nat)
  /-- A class of characters. -/
  | chars (kind : CharClass)
  deriving DecidableEq, Repr

/-- What a pattern demands of one character. -/
inductive Single where
  /-- A given character, or any other. -/
  | literal (negated : Bool) (code : Nat) (folding : Folding)
  /-- A character of a set, or one outside it. -/
  | set (negated : Bool) (members : List Member) (folding : Folding)
  /-- Any character; a line feed only if `all` is true. -/
  | any (all : Bool)
  deriving DecidableEq, Repr

/-- A condition on a position. -/
inductive Anchor where
  /-- The start of the text. -/
  | textStart
  /-- The start of the text or of a line. -/
  | lineStart
  /-- The end of the text, or before its final line feed. -/
  | textFinish
  /-- The end of the text or of a line. -/
  | lineFinish
  /-- The very end of the text. -/
  | textEnd
  /-- A place where words begin or end, or any other place. -/
  | wordEdge (negated ascii : Bool)
  deriving DecidableEq, Repr

/-- How much a repetition takes. -/
inductive Appetite where
  /-- As much as it can; it gives back. -/
  | greedy
  /-- As little as it can. -/
  | lazy
  /-- As much as it can; it gives nothing back. -/
  | possessive
  deriving DecidableEq, Repr

/-- A pattern, whose places for one character hold values of type `α`. -/
inductive Node (α : Type) where
  /-- The empty text. -/
  | empty
  /-- One character. -/
  | single (test : α)
  /-- A condition on the position. -/
  | anchor (anchor : Anchor)
  /-- One pattern after another. -/
  | sequence (first second : Node α)
  /-- One pattern or, failing that, another. -/
  | choice (first second : Node α)
  /-- A group, which is remembered if it has a number. -/
  | group (number : Option Nat) (body : Node α)
  /-- The text that a group has matched. -/
  | reference (number : Nat) (folding : Folding)
  /-- From `behind` characters before the position on, the body must match, or must not. -/
  | look (negated : Bool) (behind : Nat) (body : Node α)
  /-- A group that gives nothing back. -/
  | atomic (body : Node α)
  /-- One of two patterns, depending on whether a group has matched. -/
  | conditional (number : Nat) (present absent : Node α)
  /-- A repetition. -/
  | repetition (least : Nat) (most : Option Nat) (appetite : Appetite) (body : Node α)
  deriving Repr, Inhabited

namespace Node

/-- Replace what stands at the places for one character. -/
def map {α β : Type} (f : α → β) : Node α → Node β
  | empty => empty
  | single test => single (f test)
  | anchor place => anchor place
  | sequence first second => sequence (first.map f) (second.map f)
  | choice first second => choice (first.map f) (second.map f)
  | group number body => group number (body.map f)
  | reference number folding => reference number folding
  | look negated behind body => look negated behind (body.map f)
  | atomic body => atomic (body.map f)
  | conditional number present absent => conditional number (present.map f) (absent.map f)
  | repetition least most appetite body => repetition least most appetite (body.map f)

/-- Some patterns one after another. -/
def ofList {α : Type} : List (Node α) → Node α
  | [] => empty
  | [node] => node
  | node :: nodes => sequence node (ofList nodes)

/-- Some patterns of which the first that leads to a match counts. -/
def oneOf {α : Type} : List (Node α) → Node α
  | [] => empty
  | [node] => node
  | node :: nodes => choice node (oneOf nodes)

/-- Whether a node may be repeated: a condition on the position and a repetition may not. -/
def isRepeatable {α : Type} : Node α → Bool
  | anchor _ | repetition .. => false
  | _ => true

/-- The test of a pattern that is no more than one character in groups without numbers. -/
def single? {α : Type} : Node α → Option α
  | single test => some test
  | group none body => body.single?
  | _ => none

/-- What the first node of a pattern demands of one character, if it is one character. -/
def leading? {α : Type} : Node α → Option α
  | single test => some test
  | sequence first _ => first.leading?
  | group _ body => body.leading?
  | _ => none

end Node

end CallGraph.Pattern
