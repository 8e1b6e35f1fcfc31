/-!
# Shell patterns

A shell pattern must fit a whole text.  A star stands for any text, a question mark for any
character, and brackets for one character of a set, or of none of it after an exclamation mark;
all else stands for itself.  Slashes are characters like others.

A set may hold ranges.  A range whose ends are in the wrong order holds nothing, and brackets that
are not closed stand for themselves.
-/

namespace CallGraph.Glob

/-- A part of a shell pattern. -/
inductive Piece where
  /-- A character that stands for itself. -/
  | letter (letter : Char)
  /-- Any character. -/
  | one
  /-- Any text. -/
  | many
  /-- A character of one of some ranges, or one of none of them. -/
  | set (negated : Bool) (ranges : List (Char × Char))
  deriving DecidableEq, Repr

/-- Whether a part that stands for one character stands for this one. -/
def Piece.accepts : Piece → Char → Bool
  | letter own, other => own == other
  | one, _ => true
  | many, _ => false
  | set negated ranges, other =>
      (ranges.any fun range => range.1 ≤ other && other ≤ range.2) != negated

/-- What follows the characters at the beginning of a text that some parts stand for, one each. -/
def afterRun? : List Piece → List Char → Option (List Char)
  | [], letters => some letters
  | piece :: pieces, letter :: letters =>
      if piece.accepts letter then afterRun? pieces letters else none
  | _ :: _, [] => none

/-- What follows the first characters in a text that some parts stand for, one each. -/
def afterFirstRun? (pieces : List Piece) : List Char → Option (List Char)
  | [] => afterRun? pieces []
  | letter :: letters =>
      match afterRun? pieces (letter :: letters) with
      | some rest => some rest
      | none => afterFirstRun? pieces letters

/-- Whether some parts stand for the characters at the end of a text, one each. -/
def fitsEnd (pieces : List Piece) (letters : List Char) : Bool :=
  pieces.length ≤ letters.length &&
    (afterRun? pieces (letters.drop (letters.length - pieces.length))).isSome

/-- Whether runs of parts with stars before and between them fit a whole text.  Every run but the
last takes the first place that it fits: what a later place leaves over, an earlier one leaves over
too. -/
def fitsRuns : List (List Piece) → List Char → Bool
  | [], _ => true
  | [run], letters => fitsEnd run letters
  | run :: runs, letters => (afterFirstRun? run letters).any (fitsRuns runs)

/-- Whether a pattern fits a whole text. -/
def fits (pieces : List Piece) (letters : List Char) : Bool :=
  match pieces.splitOn .many with
  | [] => letters.isEmpty
  | [run] => afterRun? run letters = some []
  | run :: runs => (afterRun? run letters).any (fitsRuns runs)

/-! ## Sets -/

/-- How many characters after an opening bracket cannot close it: an exclamation mark, and a closing
bracket that comes first or right after it. -/
def leadOf : List Char → Nat
  | '!' :: ']' :: _ => 2
  | '!' :: _ => 1
  | ']' :: _ => 1
  | _ => 0

/-- The inside of brackets and what follows them, if they are closed. -/
def bracketed? (letters : List Char) : Option (List Char × List Char) :=
  let body := letters.drop (leadOf letters)
  match body.dropWhile (· != ']') with
  | [] => none
  | _ :: rest => some (letters.take (leadOf letters) ++ body.takeWhile (· != ']'), rest)

theorem length_lt_of_bracketed? {letters inside rest : List Char}
    (closed : bracketed? letters = some (inside, rest)) : rest.length < letters.length := by
  simp only [bracketed?] at closed
  split at closed
  · cases closed
  · next last after cut =>
      cases closed
      have shorter := (List.dropWhile_sublist (l := letters.drop (leadOf letters))
        (· != ']')).length_le
      rw [cut] at shorter
      simp only [List.length_cons, List.length_drop] at shorter
      omega

/-- Cut the inside of brackets at the hyphens that make ranges.  `skip` says how many characters
must pass before a hyphen can make one: it needs a character before it, and the one after it is
the other end of the range. -/
def chunksFrom (skip : Nat) (chunk : List Char) : List Char → List (List Char)
  | [] => [chunk.reverse]
  | letter :: letters =>
      match skip with
      | 0 =>
          if letter == '-' then chunk.reverse :: chunksFrom 2 [] letters
          else chunksFrom 0 (letter :: chunk) letters
      | skip + 1 => chunksFrom skip (letter :: chunk) letters

/-- A hyphen at the very end stands for itself. -/
def closeChunks : List (List Char) → List (List Char)
  | [] => []
  | [chunk] => [chunk]
  | [chunk, []] => [chunk ++ ['-']]
  | chunk :: chunks => chunk :: closeChunks chunks

/-- Put a chunk before others; a range in the wrong order is dropped with both its ends. -/
def joinChunk (chunk : List Char) : List (List Char) → List (List Char)
  | [] => [chunk]
  | next :: chunks =>
      match chunk.getLast?, next.head? with
      | some first, some last =>
          if last < first then (chunk.dropLast ++ next.drop 1) :: chunks
          else chunk :: next :: chunks
      | _, _ => chunk :: next :: chunks

/-- The characters of a set and the hyphens that make its ranges. -/
def setTokens : List (List Char) → List (Option Char)
  | [] => []
  | [chunk] => chunk.map some
  | chunk :: chunks => chunk.map some ++ none :: setTokens chunks

/-- The ranges of a set; a hyphen without an end on either side stands for itself. -/
def rangesOf : List (Option Char) → List (Char × Char)
  | [] => []
  | some first :: none :: some last :: tokens => (first, last) :: rangesOf tokens
  | some letter :: tokens => (letter, letter) :: rangesOf tokens
  | none :: tokens => ('-', '-') :: rangesOf tokens

/-- The set that the inside of brackets stands for. -/
def setOf (inside : List Char) : Piece :=
  let skip := if inside.head? == some '!' then 2 else 1
  let chunks := (closeChunks (chunksFrom skip [] inside)).foldr joinChunk []
  match setTokens chunks with
  | some '!' :: tokens => .set true (rangesOf tokens)
  | tokens => .set false (rangesOf tokens)

/-! ## Reading -/

/-- Read a shell pattern. -/
def readPieces (letters : List Char) : List Piece :=
  match letters with
  | [] => []
  | '*' :: rest => .many :: readPieces rest
  | '?' :: rest => .one :: readPieces rest
  | '[' :: rest =>
      match _closed : bracketed? rest with
      | some (inside, after) => setOf inside :: readPieces after
      | none => .letter '[' :: readPieces rest
  | letter :: rest => .letter letter :: readPieces rest
termination_by letters.length
decreasing_by
  all_goals simp only [List.length_cons]
  · omega
  · omega
  · have := length_lt_of_bracketed? _closed; omega
  · omega
  · omega

/-- Whether a shell pattern fits a whole text. -/
def matchesText (pattern text : String) : Bool :=
  fits (readPieces pattern.toList) text.toList

end CallGraph.Glob
