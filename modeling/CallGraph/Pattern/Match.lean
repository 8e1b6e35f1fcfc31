import CallGraph.Pattern.CharTest

/-!
# Matching a pattern

A pattern is matched step by step.  A step does the first part of the work that is left: it takes
a character, notes a place, or replaces a node by its parts.  Where there is more than one way to
go on, the other ways are put on a stack, and the way on its top is tried next when the work fails.
A match is found when no work is left.

What a group has matched belongs to a way to go on: it is forgotten when another way is tried.  A
group that gives nothing back forgets the ways that were put on the stack inside it.
-/

namespace CallGraph.Pattern

open Text

/-- Where groups begin and end: the start and the end of a group number by number. -/
abbrev Marks := Array (Option Nat)

namespace Marks

/-- Nothing is matched yet. -/
def none (groups : Nat) : Marks := Array.replicate (2 * groups) Option.none

/-- A group begins at a position. -/
def opened (marks : Marks) (number position : Nat) : Marks :=
  marks.setIfInBounds (2 * number) (some position)

/-- A group ends at a position. -/
def closed (marks : Marks) (number position : Nat) : Marks :=
  marks.setIfInBounds (2 * number + 1) (some position)

/-- The start and the end of what a group has matched.  A group that has begun anew behind its
last end has matched nothing. -/
def span? (marks : Marks) (number : Nat) : Option (Nat × Nat) :=
  match marks[2 * number]?.join, marks[2 * number + 1]?.join with
  | some start, some stop => if start ≤ stop then some (start, stop) else Option.none
  | _, _ => Option.none

end Marks

/-- A repetition of a pattern. -/
structure Loop where
  /-- The least number of times. -/
  least : Nat
  /-- The greatest number of times, if there is one. -/
  most : Option Nat
  /-- How much it takes. -/
  appetite : Appetite
  /-- What is repeated. -/
  body : Node QuickTest

mutual

/-- The work that is left. -/
inductive Work where
  /-- None. -/
  | done
  /-- A pattern is to be matched. -/
  | node (node : Node QuickTest) (rest : Work)
  /-- A group is to be closed. -/
  | close (number : Nat) (rest : Work)
  /-- A repetition is to be continued after `count` times, the last of which began at `last` if it
  was one that need not have been. -/
  | loop (loop : Loop) (count : Nat) (last : Option Nat) (rest : Work)
  /-- The ways to go on are to be those on a stack. -/
  | commit (stack : Stack) (rest : Work)
  /-- The ways to go on are to be those on a stack, and the position a former one. -/
  | turnBack (position : Nat) (stack : Stack) (rest : Work)
  /-- The work has failed; a way on a stack is to be tried. -/
  | refuse (stack : Stack)

/-- Other ways to go on, the next one first. -/
inductive Stack where
  /-- None. -/
  | empty
  /-- Some work at a position. -/
  | resume (position : Nat) (marks : Marks) (work : Work) (rest : Stack)
  /-- Some work at a position or at one before it, down to `first`. -/
  | retreat (first position : Nat) (marks : Marks) (work : Work) (rest : Stack)
  /-- Some work after one more character, and up to `room` of them. -/
  | advance (test : QuickTest) (room : Option Nat) (position : Nat) (marks : Marks) (work : Work)
      (rest : Stack)

end

/-- A match in progress. -/
structure Progress where
  /-- The number of characters before the position. -/
  position : Nat
  /-- What the groups have matched. -/
  marks : Marks
  /-- The work that is left. -/
  work : Work
  /-- Other ways to go on. -/
  stack : Stack

/-- Whether the characters on the two sides of a position differ in being word characters. -/
def isWordEdge (ascii : Bool) (subject : Array Char) (position : Nat) : Bool :=
  let isWord (letter : Option Char) : Bool :=
    letter.any fun c => isWordChar c && (!ascii || c.toNat < 0x80)
  let before := if position = 0 then none else subject[position - 1]?
  isWord before != isWord subject[position]?

/-- Whether a condition holds at a position.  An empty text has no word edges and no other places
either. -/
def Anchor.holds (anchor : Anchor) (subject : Array Char) (position : Nat) : Bool :=
  match anchor with
  | .textStart => position == 0
  | .lineStart => position == 0 || subject[position - 1]? == some '\n'
  | .textFinish =>
      position == subject.size ||
        (position + 1 == subject.size && subject[position]? == some '\n')
  | .lineFinish => position == subject.size || subject[position]? == some '\n'
  | .textEnd => position == subject.size
  | .wordEdge negated ascii =>
      !subject.isEmpty && isWordEdge ascii subject position != negated

/-- Where the characters from a position on that pass a test end; at most `limit` are taken. -/
def runEnd (subject : Array Char) (test : QuickTest) (limit position : Nat) : Nat :=
  match limit with
  | 0 => position
  | limit + 1 =>
      if subject[position]?.any test.accepts then runEnd subject test limit (position + 1)
      else position

/-- Whether a piece of a text occurs at a position. -/
def repeatsAt (subject : Array Char) (folding : Folding) (start length position : Nat) : Bool :=
  match length with
  | 0 => true
  | length + 1 =>
      match subject[start]?, subject[position]? with
      | some left, some right =>
          folding.lower left.toNat == folding.lower right.toNat &&
            repeatsAt subject folding (start + 1) length (position + 1)
      | _, _ => false

/-- Whether a pattern may match from a position on, as far as its first demand tells. -/
def Node.mayBegin (subject : Array Char) (position : Nat) : Node QuickTest → Bool
  | .single test => subject[position]?.any test.accepts
  | .anchor place => place.holds subject position
  | .sequence first _ => first.mayBegin subject position
  | .group _ body => body.mayBegin subject position
  | _ => true

/-- Whether work may succeed from a position on, as far as its first demand tells. -/
def Work.mayBegin (subject : Array Char) (position : Nat) : Work → Bool
  | .node first _ => first.mayBegin subject position
  | .close _ rest => rest.mayBegin subject position
  | _ => true

/-- The last position where work may begin, among so many up to a position. -/
def Work.retreatTo? (work : Work) (subject : Array Char) : Nat → Nat → Option Nat
  | 0, _ => none
  | count + 1, position =>
      if work.mayBegin subject position then some position
      else work.retreatTo? subject count (position - 1)

/-- Try the next way to go on. -/
def Stack.next? (subject : Array Char) : Stack → Option Progress
  | .empty => none
  | .resume position marks work rest => some { position, marks, work, stack := rest }
  | .retreat first position marks work rest =>
      match work.retreatTo? subject (position + 1 - first) position with
      | some position =>
          some {
            position
            marks
            work
            stack :=
              if first < position then .retreat first (position - 1) marks work rest else rest }
      | none => rest.next? subject
  | .advance test room position marks work rest =>
      if room != some 0 && subject[position]?.any test.accepts then
        some {
          position := position + 1
          marks
          work
          stack := .advance test (room.map (· - 1)) (position + 1) marks work rest }
      else rest.next? subject

namespace Progress

/-- Leave the current way. -/
@[inline]
def fail (progress : Progress) (subject : Array Char) : Option Progress :=
  progress.stack.next? subject

/-- Go on with some work. -/
@[inline]
def go (progress : Progress) (work : Work) : Option Progress :=
  some { progress with work }

/-- Go on with some work, and later with some other work from the same place. -/
@[inline]
def fork (progress : Progress) (work other : Work) : Option Progress :=
  some { progress with
    work
    stack := .resume progress.position progress.marks other progress.stack }

/-- Repeat one character. -/
@[inline]
def repeatSingle (progress : Progress) (subject : Array Char) (test : QuickTest) (least : Nat)
    (most : Option Nat) (appetite : Appetite) (rest : Work) : Option Progress :=
  let position := progress.position
  let left := subject.size - position
  let wanted :=
    match appetite with
    | .lazy => least
    | .greedy | .possessive => most.getD left
  let first := position + least
  let last := if least ≤ left then runEnd subject test (min wanted left) position else position
  if last < first then progress.fail subject
  else
    let progress := { progress with position := last, work := rest }
    match appetite with
    | .possessive => some progress
    | .greedy =>
        if first < last then
          some { progress with
            stack := .retreat first (last - 1) progress.marks rest progress.stack }
        else some progress
    | .lazy =>
        some { progress with
          stack := .advance test (most.map (· - least)) last progress.marks rest progress.stack }

/-- Continue a repetition.  One more time that need not be is tried only if the last such time
took something. -/
@[inline]
def continueLoop (progress : Progress) (loop : Loop) (count : Nat) (last : Option Nat)
    (rest : Work) : Option Progress :=
  let once (after : Work) : Work :=
    .node loop.body (if loop.appetite = .possessive then .commit progress.stack after else after)
  if count < loop.least then progress.go (once (.loop loop (count + 1) last rest))
  else
    let more := once (.loop loop (count + 1) (some progress.position) rest)
    if loop.most.all (count < ·) && last != some progress.position then
      match loop.appetite with
      | .greedy | .possessive => progress.fork more rest
      | .lazy => progress.fork rest more
    else progress.go rest

/-- Match a node. -/
@[inline]
def enter (progress : Progress) (subject : Array Char) (node : Node QuickTest) (rest : Work) :
    Option Progress :=
  let position := progress.position
  match node with
  | .empty => progress.go rest
  | .single test =>
      if subject[position]?.any test.accepts then
        some { progress with position := position + 1, work := rest }
      else progress.fail subject
  | .anchor place =>
      if place.holds subject position then progress.go rest else progress.fail subject
  | .sequence first second => progress.go (.node first (.node second rest))
  | .choice first second => progress.fork (.node first rest) (.node second rest)
  | .group none body => progress.go (.node body rest)
  | .group (some number) body =>
      some { progress with
        marks := progress.marks.opened number position
        work := .node body (.close number rest) }
  | .reference number folding =>
      match progress.marks.span? number with
      | some (start, stop) =>
          if repeatsAt subject folding start (stop - start) position then
            some { progress with position := position + (stop - start), work := rest }
          else progress.fail subject
      | none => progress.fail subject
  | .look negated behind body =>
      if position < behind then if negated then progress.go rest else progress.fail subject
      else
        let start := { progress with position := position - behind }
        if negated then
          some { start with
            work := .node body (.refuse progress.stack)
            stack := .resume position progress.marks rest progress.stack }
        else start.go (.node body (.turnBack position progress.stack rest))
  | .atomic body => progress.go (.node body (.commit progress.stack rest))
  | .conditional number present absent =>
      progress.go (.node (if (progress.marks.span? number).isSome then present else absent) rest)
  | .repetition least most appetite body =>
      match body.single? with
      | some test => progress.repeatSingle subject test least most appetite rest
      | none => progress.go (.loop { least, most, appetite, body } 0 none rest)

/-- One step of a match with some work left. -/
@[inline]
def step (progress : Progress) (subject : Array Char) : Option Progress :=
  match progress.work with
  | .done => some progress
  | .node node rest => progress.enter subject node rest
  | .close number rest =>
      some { progress with
        marks := progress.marks.closed number progress.position
        work := rest }
  | .loop loop count last rest => progress.continueLoop loop count last rest
  | .commit stack rest => some { progress with stack, work := rest }
  | .turnBack position stack rest => some { progress with position, stack, work := rest }
  | .refuse stack => stack.next? subject

/-- Whether a match is found within a number of steps. -/
def succeeds (subject : Array Char) : Nat → Progress → Bool
  | 0, _ => false
  | fuel + 1, progress =>
      match progress.work with
      | .done => true
      | _ =>
          match progress.step subject with
          | some next => succeeds subject fuel next
          | none => false

end Progress

/-- A pattern that is prepared for matching. -/
structure Matcher where
  /-- The pattern. -/
  body : Node QuickTest
  /-- The number of groups, counting the whole pattern as one. -/
  groups : Nat
  /-- What the first character of a match must pass. -/
  first : Option QuickTest

namespace Matcher

/-- The number of steps after which a match is given up.  No text that fits into a memory needs
as many unless it would take years. -/
def patience : Nat := 4611686018427387904

/-- Whether a pattern matches from a position on. -/
def matchesAt (matcher : Matcher) (subject : Array Char) (position : Nat) : Bool :=
  (matcher.first.all fun test => subject[position]?.any test.accepts) &&
    Progress.succeeds subject patience
      { position, marks := .none matcher.groups, work := .node matcher.body .done, stack := .empty }

/-- Whether a pattern matches somewhere in a text. -/
def occursIn (matcher : Matcher) (text : String) : Bool :=
  let subject := text.toList.toArray
  (List.range (subject.size + 1)).any (matcher.matchesAt subject)

end Matcher

end CallGraph.Pattern
