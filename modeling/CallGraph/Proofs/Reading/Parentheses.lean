import CallGraph.Dump.Annotation
import Mathlib.Data.List.Basic
import Mathlib.Data.List.Induction
import Mathlib.Logic.Function.Iterate

/-!
# Matching parentheses

A scan from left to right that keeps the parentheses which are open on a stack tells which of them
match.  Taking annotations away innermost first, round after round, leaves what one such scan
leaves: a space for every outermost pair with all that is in it, and everything else in its place,
the parentheses without a partner included.
-/

namespace CallGraph.Dump

/-! ## Kinds of letters -/

section Letters

variable {letter : Char}

theorem not_isParenthesis (plain : isParenthesis letter = false) : letter ≠ '(' ∧ letter ≠ ')' := by
  simpa [isParenthesis] using plain

/-- A letter is an opening parenthesis, a closing one or none. -/
theorem parenthesis_cases (letter : Char) :
    letter = '(' ∨ letter = ')' ∨ isParenthesis letter = false := by
  by_cases opening : letter = '('
  · exact .inl opening
  · by_cases closing : letter = ')'
    · exact .inr (.inl closing)
    · exact .inr (.inr (by simp [isParenthesis, opening, closing]))

end Letters

/-! ## Reading with a stack of texts -/

/-- A text that is read from left to right: what came since the last parenthesis that is open, and
what came before each parenthesis that is open, the last one first. -/
structure Levels where
  /-- What came since the last parenthesis that is open. -/
  top : List Char := []
  /-- What came before each parenthesis that is open, since the one before it. -/
  below : List (List Char) := []

namespace Levels

/-- Read a letter.  A closing parenthesis turns what came since its partner into a space. -/
def read (levels : Levels) (letter : Char) : Levels :=
  if letter = '(' then ⟨[], levels.top :: levels.below⟩
  else if letter = ')' then
    match levels.below with
    | [] => ⟨levels.top ++ [')'], []⟩
    | outer :: below => ⟨outer ++ [' '], below⟩
  else ⟨levels.top ++ [letter], levels.below⟩

/-- Read a text. -/
def readAll (levels : Levels) (letters : List Char) : Levels := letters.foldl read levels

/-- The whole text, where open parentheses stand in their places. -/
def text (levels : Levels) : List Char :=
  levels.below.foldl (fun text outer => outer ++ '(' :: text) levels.top

variable {levels : Levels} {letter : Char} {letters rest top outer : List Char}
  {below : List (List Char)}

theorem read_opening : levels.read '(' = ⟨[], levels.top :: levels.below⟩ := rfl

theorem read_closing : read ⟨top, outer :: below⟩ ')' = ⟨outer ++ [' '], below⟩ := rfl

theorem read_unmatched : read ⟨top, []⟩ ')' = ⟨top ++ [')'], []⟩ := rfl

theorem read_plain (plain : isParenthesis letter = false) :
    levels.read letter = ⟨levels.top ++ [letter], levels.below⟩ := by
  obtain ⟨notOpening, notClosing⟩ := not_isParenthesis plain
  simp [read, notOpening, notClosing]

theorem readAll_cons : levels.readAll (letter :: letters) = (levels.read letter).readAll letters :=
  rfl

theorem readAll_append : levels.readAll (letters ++ rest) = (levels.readAll letters).readAll rest :=
  List.foldl_append

theorem text_append (top more : List Char) (below : List (List Char)) :
    text ⟨top ++ more, below⟩ = text ⟨top, below⟩ ++ more := by
  induction below generalizing top with
  | nil => rfl
  | cons outer below induction =>
      have further := induction (outer ++ '(' :: top)
      rwa [List.append_assoc, List.cons_append] at further

theorem text_opening (levels : Levels) :
    text ⟨[], levels.top :: levels.below⟩ = levels.text ++ ['('] :=
  text_append levels.top ['('] levels.below

/-- Up to a closing parenthesis that comes first, everything belongs to the last open one. -/
theorem readAll_afterClosing? (closed : afterClosing? letters = some rest) (top : List Char) :
    readAll ⟨top, outer :: below⟩ letters = readAll ⟨outer ++ [' '], below⟩ rest := by
  induction letters generalizing top with
  | nil => cases closed
  | cons letter letters induction =>
      rw [afterClosing?] at closed
      rcases parenthesis_cases letter with rfl | rfl | plain
      · cases closed
      · cases closed
        rfl
      · obtain ⟨notOpening, notClosing⟩ := not_isParenthesis plain
        rw [readAll_cons, read_plain plain]
        exact induction (by simpa [notOpening, notClosing] using closed) _

/-- One round does not change what a text is read as. -/
theorem readAll_blankInnermost (letters : List Char) (levels : Levels) :
    levels.readAll (blankInnermost letters) = levels.readAll letters := by
  have space : isParenthesis ' ' = false := by decide
  fun_induction blankInnermost letters generalizing levels with
  | case1 => rfl
  | case2 letter rest opening after closed induction =>
      obtain rfl : letter = '(' := by simpa using opening
      rw [readAll_cons, readAll_cons, read_plain space, read_opening,
        readAll_afterClosing? closed, induction]
  | case3 letter rest _ _ induction => rw [readAll_cons, readAll_cons, induction]
  | case4 letter rest _ induction => rw [readAll_cons, readAll_cons, induction]

/-- Of a text that one round does not change nothing is taken away: where a parenthesis is open, no
closing one comes first. -/
theorem text_readAll_of_stable (stable : blankInnermost letters = letters)
    (unclosed : levels.below = [] ∨ afterClosing? letters = none) :
    (levels.readAll letters).text = levels.text ++ letters := by
  induction letters generalizing levels with
  | nil => exact (List.append_nil _).symm
  | cons letter letters induction =>
      rw [readAll_cons]
      rw [blankInnermost] at stable
      rcases parenthesis_cases letter with rfl | rfl | plain
      · split at stable
        · split at stable
          · cases (List.cons.inj stable).1
          · next unclosedInside =>
              rw [read_opening, induction (List.cons.inj stable).2 (.inr unclosedInside),
                text_opening, List.append_assoc, List.singleton_append]
        · contradiction
      · have nothingOpen : levels.below = [] :=
          unclosed.resolve_right fun closed => by cases closed
        obtain ⟨top, below⟩ := levels
        obtain rfl : below = [] := nothingOpen
        rw [read_unmatched, induction (List.cons.inj stable).2 (.inl rfl), text_append,
          List.append_assoc, List.singleton_append]
      · obtain ⟨notOpening, notClosing⟩ := not_isParenthesis plain
        have unclosedLater : levels.below = [] ∨ afterClosing? letters = none := by
          simpa [afterClosing?, notOpening, notClosing] using unclosed
        have later := @induction ⟨levels.top ++ [letter], levels.below⟩
          (by simpa [notOpening] using stable) unclosedLater
        rw [read_plain plain, later, text_append, List.append_assoc, List.singleton_append]

end Levels

/-- Taking annotations away leaves what one reading with a stack leaves. -/
theorem blankAnnotations_eq_text (letters : List Char) :
    blankAnnotations letters = (Levels.readAll {} letters).text := by
  fun_induction blankAnnotations letters with
  | case1 letters stable => exact (@Levels.text_readAll_of_stable {} letters stable (.inl rfl)).symm
  | case2 letters _ induction => rw [induction, Levels.readAll_blankInnermost]

/-- Taking annotations away ends: after some rounds, no more than the text has letters, a round
changes nothing. -/
theorem exists_rounds (letters : List Char) :
    (∃ rounds ≤ letters.length, blankInnermost^[rounds] letters = blankAnnotations letters) ∧
      blankInnermost (blankAnnotations letters) = blankAnnotations letters := by
  fun_induction blankAnnotations letters with
  | case1 letters stable => exact ⟨⟨0, Nat.zero_le _, rfl⟩, stable⟩
  | case2 letters unstable induction =>
      obtain ⟨⟨rounds, few, reached⟩, stable⟩ := induction
      have shorter := length_blankInnermost_lt letters unstable
      refine ⟨⟨rounds + 1, by omega, ?_⟩, stable⟩
      rw [Function.iterate_succ_apply, reached]

/-! ## Spans -/

/-- A piece of a text, from its first position to its last one. -/
structure Span where
  /-- The first position. -/
  first : Nat
  /-- The last position. -/
  last : Nat
  deriving DecidableEq, Repr

namespace Span

/-- Whether a position lies in a span. -/
def covers (span : Span) (position : Nat) : Bool := span.first ≤ position && position ≤ span.last

/-- Whether a span lies inside another one. -/
def encloses (outer inner : Span) : Bool := outer.first < inner.first && inner.last < outer.last

end Span

/-- The spans that lie inside no other one. -/
def outermost (spans : List Span) : List Span :=
  spans.filter fun span => !spans.any fun other => other.encloses span

/-- What is left of a letter at a position when spans are replaced: nothing in a span, but for what
stands in place of the whole span at its first position. -/
def replacement (filler : List Char) (spans : List Span) (letter : Char) (position : Nat) :
    List Char :=
  if spans.any fun span => span.first == position then filler
  else if spans.any fun span => span.covers position then []
  else [letter]

/-- Replace every span in a text that begins at a position. -/
def replaceFrom (filler : List Char) (spans : List Span) (position : Nat) (letters : List Char) :
    List Char :=
  (letters.zipIdx position).flatMap fun entry => replacement filler spans entry.1 entry.2

/-- Replace every span in a text. -/
def replaceSpans (filler : List Char) (spans : List Span) (letters : List Char) : List Char :=
  replaceFrom filler spans 0 letters

section Spans

variable {filler left right : List Char} {spans others : List Span} {position : Nat}

theorem replaceFrom_cons (filler : List Char) (spans : List Span) (position : Nat) (letter : Char)
    (letters : List Char) :
    replaceFrom filler spans position (letter :: letters) =
      replacement filler spans letter position ++
        replaceFrom filler spans (position + 1) letters := by
  rw [replaceFrom, List.zipIdx_cons, List.flatMap_cons, replaceFrom]

theorem replaceFrom_append (filler : List Char) (spans : List Span) (position : Nat)
    (left right : List Char) :
    replaceFrom filler spans position (left ++ right) =
      replaceFrom filler spans position left ++
        replaceFrom filler spans (position + left.length) right := by
  rw [replaceFrom, List.zipIdx_append, List.flatMap_append, replaceFrom, replaceFrom]

theorem replaceSpans_append (filler : List Char) (spans : List Span) (left right : List Char) :
    replaceSpans filler spans (left ++ right) =
      replaceSpans filler spans left ++ replaceFrom filler spans left.length right := by
  rw [replaceSpans, replaceFrom_append, Nat.zero_add, replaceSpans]

theorem replaceFrom_congr
    (same : ∀ letter place, position ≤ place → place < position + left.length →
      replacement filler spans letter place = replacement filler others letter place) :
    replaceFrom filler spans position left = replaceFrom filler others position left := by
  refine List.flatMap_congr fun entry member => ?_
  obtain ⟨starts, ends, -⟩ := List.mem_zipIdx member
  exact same entry.1 entry.2 starts ends

/-- Inside a span, past its first position, nothing is left. -/
theorem replaceFrom_eq_nil
    (covered : ∀ letter place, position ≤ place → place < position + left.length →
      replacement filler spans letter place = []) :
    replaceFrom filler spans position left = [] := by
  refine List.flatMap_eq_nil_iff.mpr fun entry member => ?_
  obtain ⟨starts, ends, -⟩ := List.mem_zipIdx member
  exact covered entry.1 entry.2 starts ends

/-- A letter outside of all spans stays. -/
theorem replacement_of_uncovered
    (uncovered : ∀ span ∈ spans, span.covers position = false ∧ span.first ≠ position)
    (letter : Char) : replacement filler spans letter position = [letter] := by
  rw [replacement, if_neg, if_neg]
  · simp only [List.any_eq_true, not_exists, not_and, Bool.not_eq_true]
    exact fun span member => (uncovered span member).1
  · simp only [List.any_eq_true, not_exists, not_and, beq_iff_eq]
    exact fun span member => (uncovered span member).2

end Spans

/-! ## Reading with a stack of positions -/

/-- How far parentheses are matched: where those that are open stand, the last one first, and the
pairs that were found. -/
structure Matching where
  /-- Where open parentheses stand, the last one first. -/
  openings : List Nat := []
  /-- The pairs, from the opening parenthesis to the closing one. -/
  pairs : List Span := []

namespace Matching

/-- Read the letter at a position.  A closing parenthesis is the partner of the last one that is
open, if there is one. -/
def read (matching : Matching) (letter : Char) (position : Nat) : Matching :=
  if letter = '(' then { matching with openings := position :: matching.openings }
  else if letter = ')' then
    match matching.openings with
    | [] => matching
    | opening :: openings => ⟨openings, ⟨opening, position⟩ :: matching.pairs⟩
  else matching

end Matching

/-- Match the parentheses of a text from left to right. -/
def matchParentheses (letters : List Char) : Matching :=
  letters.zipIdx.foldl (fun matching entry => matching.read entry.1 entry.2) {}

/-- A text in which a space stands in place of every outermost pair of parentheses that match, with
all that is between them. -/
def blankOutermost (letters : List Char) : List Char :=
  replaceSpans [' '] (outermost (matchParentheses letters).pairs) letters

theorem matchParentheses_concat (letters : List Char) (letter : Char) :
    matchParentheses (letters ++ [letter]) =
      (matchParentheses letters).read letter letters.length := by
  rw [matchParentheses, List.zipIdx_append, List.foldl_append, Nat.zero_add]
  rfl

namespace Matching

/-- What holds of the pairs and the open parentheses of a text of a given length: no pair straddles
an open parenthesis. -/
structure Sound (matching : Matching) (length : Nat) : Prop where
  /-- A pair begins before it ends, in the text. -/
  pairs : ∀ pair ∈ matching.pairs, pair.first < pair.last ∧ pair.last < length
  /-- Open parentheses stand in the text. -/
  openings : ∀ opening ∈ matching.openings, opening < length
  /-- The last one comes first. -/
  backwards : matching.openings.Pairwise (· > ·)
  /-- A pair lies on one side of an open parenthesis. -/
  apart : ∀ pair ∈ matching.pairs, ∀ opening ∈ matching.openings,
    pair.last < opening ∨ opening < pair.first

variable {matching : Matching} {length opening : Nat} {openings : List Nat} {pairs : List Span}

theorem Sound.grow (sound : matching.Sound length) : matching.Sound (length + 1) where
  pairs pair member := ⟨(sound.pairs pair member).1, Nat.lt_succ_of_lt (sound.pairs pair member).2⟩
  openings opening member := Nat.lt_succ_of_lt (sound.openings opening member)
  backwards := sound.backwards
  apart := sound.apart

theorem Sound.open (sound : matching.Sound length) :
    Sound ⟨length :: matching.openings, matching.pairs⟩ (length + 1) where
  pairs := sound.grow.pairs
  openings opening member := by
    rcases List.mem_cons.mp member with rfl | earlier
    · exact Nat.lt_succ_self _
    · exact sound.grow.openings opening earlier
  backwards := List.pairwise_cons.mpr ⟨sound.openings, sound.backwards⟩
  apart pair listed opening member := by
    rcases List.mem_cons.mp member with rfl | earlier
    · exact .inl (sound.pairs pair listed).2
    · exact sound.apart pair listed opening earlier

theorem Sound.close (sound : Sound ⟨opening :: openings, pairs⟩ length) :
    Sound ⟨openings, ⟨opening, length⟩ :: pairs⟩ (length + 1) where
  pairs pair listed := by
    rcases List.mem_cons.mp listed with rfl | earlier
    · exact ⟨sound.openings opening List.mem_cons_self, Nat.lt_succ_self _⟩
    · exact sound.grow.pairs pair earlier
  openings other member := sound.grow.openings other (List.mem_cons_of_mem _ member)
  backwards := sound.backwards.of_cons
  apart pair listed other member := by
    rcases List.mem_cons.mp listed with rfl | earlier
    · exact .inr (List.rel_of_pairwise_cons sound.backwards member)
    · exact sound.apart pair earlier other (List.mem_cons_of_mem _ member)

/-- A new pair lies around the pairs past its opening parenthesis. -/
theorem Sound.mem_outermost_iff (sound : Sound ⟨opening :: openings, pairs⟩ length) {span : Span} :
    span ∈ outermost (⟨opening, length⟩ :: pairs) ↔
      span = ⟨opening, length⟩ ∨ span ∈ outermost pairs ∧ span.last < opening := by
  have inside : ∀ pair ∈ pairs, pair.first < pair.last ∧ pair.last < length := sound.pairs
  have sides : ∀ pair ∈ pairs, pair.last < opening ∨ opening < pair.first := fun pair listed =>
    sound.apart pair listed opening List.mem_cons_self
  simp only [outermost, List.mem_filter, List.mem_cons, List.any_cons, Bool.not_eq_true',
    Bool.or_eq_false_iff, List.any_eq_false, Span.encloses, Bool.and_eq_true, decide_eq_true_eq,
    Bool.and_eq_false_iff, decide_eq_false_iff_not]
  constructor
  · rintro ⟨rfl | listed, notInNew, notInOld⟩
    · exact .inl rfl
    · have within := inside span listed
      have side := sides span listed
      exact .inr ⟨⟨listed, notInOld⟩, by omega⟩
  · rintro (rfl | ⟨⟨listed, notInOld⟩, before⟩)
    · refine ⟨.inl rfl, .inl (Nat.lt_irrefl _), fun other otherListed enclosed => ?_⟩
      have within := inside other otherListed
      exact absurd enclosed.2 (by simpa using Nat.le_of_lt within.2)
    · have within := inside span listed
      exact ⟨.inr listed, .inl (by omega), notInOld⟩

variable {letter : Char} {place : Nat}

/-- Before the opening parenthesis of a new pair nothing changes. -/
theorem Sound.replacement_before (sound : Sound ⟨opening :: openings, pairs⟩ length)
    (filler : List Char) (letter : Char) (before : place < opening) :
    replacement filler (outermost (⟨opening, length⟩ :: pairs)) letter place =
      replacement filler (outermost pairs) letter place := by
  have inside : ∀ span ∈ outermost pairs, span.first < span.last ∧
      (span.last < opening ∨ opening < span.first) := fun span listed =>
    ⟨(sound.pairs span (List.mem_filter.mp listed).1).1,
      sound.apart span (List.mem_filter.mp listed).1 opening List.mem_cons_self⟩
  have same (test : Span → Bool) (early : ∀ span, test span = true → span.first ≤ place) :
      (outermost (⟨opening, length⟩ :: pairs)).any test = (outermost pairs).any test := by
    apply Bool.eq_iff_iff.mpr
    simp only [List.any_eq_true, sound.mem_outermost_iff]
    constructor
    · rintro ⟨span, rfl | ⟨listed, -⟩, holds⟩
      · have starts := early _ holds
        dsimp only at starts
        omega
      · exact ⟨span, listed, holds⟩
    · rintro ⟨span, listed, holds⟩
      have starts := early _ holds
      have within := inside span listed
      exact ⟨span, .inr ⟨listed, by omega⟩, holds⟩
  rw [replacement, replacement, same, same]
  · intro span covers
    simp only [Span.covers, Bool.and_eq_true, decide_eq_true_eq] at covers
    exact covers.1
  · intro span starts
    exact Nat.le_of_eq (by simpa using starts)

/-- A new pair is replaced where it begins. -/
theorem Sound.replacement_at (sound : Sound ⟨opening :: openings, pairs⟩ length)
    (filler : List Char) (letter : Char) :
    replacement filler (outermost (⟨opening, length⟩ :: pairs)) letter opening = filler := by
  rw [replacement, if_pos]
  exact List.any_eq_true.mpr ⟨_, sound.mem_outermost_iff.mpr (.inl rfl), by simp⟩

theorem Sound.replacement_inside (sound : Sound ⟨opening :: openings, pairs⟩ length)
    (filler : List Char) (letter : Char) (after : opening < place) (within : place ≤ length) :
    replacement filler (outermost (⟨opening, length⟩ :: pairs)) letter place = [] := by
  rw [replacement, if_neg, if_pos]
  · refine List.any_eq_true.mpr ⟨_, sound.mem_outermost_iff.mpr (.inl rfl), ?_⟩
    simp only [Span.covers, Bool.and_eq_true, decide_eq_true_eq]
    exact ⟨Nat.le_of_lt after, within⟩
  · simp only [List.any_eq_true, sound.mem_outermost_iff, beq_iff_eq, not_exists, not_and]
    rintro span (rfl | ⟨listed, before⟩) starts
    · dsimp only at starts
      omega
    · have shape := (sound.pairs span (List.mem_filter.mp listed).1).1
      omega

end Matching

/-! ## The two readings agree -/

/-- The levels of a text are what is left of it since each open parenthesis when spans are
replaced. -/
inductive Shows (spans : List Span) : List Char → List Nat → Levels → Prop where
  /-- No parenthesis is open. -/
  | bottom (letters : List Char) : Shows spans letters [] ⟨replaceSpans [' '] spans letters, []⟩
  /-- The last open parenthesis comes after a text of which this holds. -/
  | level {before since top outer : List Char} {openings : List Nat} {below : List (List Char)}
      (shows : Shows spans before openings ⟨outer, below⟩) (nonempty : since ≠ [])
      (left : replaceSpans [' '] spans (before ++ since) =
        replaceSpans [' '] spans before ++ '(' :: top) :
      Shows spans (before ++ since) (before.length :: openings) ⟨top, outer :: below⟩

namespace Shows

variable {spans others : List Span} {letters since top more : List Char} {openings : List Nat}
  {levels : Levels} {below : List (List Char)}

theorem text_eq (shows : Shows spans letters openings levels) :
    levels.text = replaceSpans [' '] spans letters := by
  induction shows with
  | bottom => rfl
  | @level before since top outer openings below _ _ left induction =>
      rw [left, ← induction]
      exact Levels.text_append outer ('(' :: top) below

/-- More letters that leave more behind lengthen the last level. -/
theorem extend (shows : Shows spans letters openings levels)
    (same : ∀ letter place, place < letters.length →
      replacement [' '] others letter place = replacement [' '] spans letter place)
    (left : replaceSpans [' '] others (letters ++ since) =
      replaceSpans [' '] spans letters ++ more) :
    Shows others (letters ++ since) openings ⟨levels.top ++ more, levels.below⟩ := by
  induction shows generalizing since more with
  | bottom letters =>
      rw [← left]
      exact bottom _
  | @level before inside top outer openings below _ nonempty kept induction =>
      have sameBefore : replaceSpans [' '] others before = replaceSpans [' '] spans before :=
        replaceFrom_congr fun letter place _ early => same letter place (by simp; omega)
      have shows := @induction [] [] (fun letter place early => same letter place (by simp; omega))
        (by rw [List.append_nil, List.append_nil, sameBefore])
      rw [List.append_nil, List.append_nil] at shows
      rw [List.append_assoc]
      refine level shows (by simp [nonempty]) ?_
      rw [← List.append_assoc, left, kept, sameBefore, List.append_assoc, List.cons_append]

end Shows

/-- The two readings of a text go together. -/
theorem shows_matchParentheses (letters : List Char) :
    (matchParentheses letters).Sound letters.length ∧
      Shows (outermost (matchParentheses letters).pairs) letters
        (matchParentheses letters).openings (Levels.readAll {} letters) := by
  induction letters using List.reverseRecOn with
  | nil => exact ⟨⟨nofun, nofun, .nil, nofun⟩, .bottom []⟩
  | append_singleton letters letter induction =>
      rw [matchParentheses_concat, Levels.readAll_append, List.length_append,
        List.length_singleton]
      generalize Levels.readAll {} letters = levels at induction ⊢
      generalize matchParentheses letters = matching at induction ⊢
      obtain ⟨openings, pairs⟩ := matching
      obtain ⟨sound, shows⟩ := induction
      have keeps : replaceFrom [' '] (outermost pairs) letters.length [letter] = [letter] := by
        rw [replaceFrom_cons, replacement_of_uncovered]
        · rfl
        · intro span listed
          have shape := sound.pairs span (List.mem_filter.mp listed).1
          constructor
          · simp only [Span.covers, Bool.and_eq_false_iff, decide_eq_false_iff_not]
            omega
          · omega
      have stays : Shows (outermost pairs) (letters ++ [letter]) openings
          ⟨levels.top ++ [letter], levels.below⟩ := by
        refine shows.extend (fun _ _ _ => rfl) ?_
        rw [replaceSpans_append, keeps]
      rcases parenthesis_cases letter with rfl | rfl | plain
      · refine ⟨sound.open, .level shows (by simp) ?_⟩
        change replaceSpans [' '] (outermost pairs) _ = _
        rw [replaceSpans_append, keeps]
        rfl
      · cases shows with
        | bottom letters => exact ⟨sound.grow, stays⟩
        | @level before since top outer openings below shows nonempty left =>
            obtain ⟨first, inside, rfl⟩ := List.exists_cons_of_ne_nil nonempty
            have unchanged : replaceSpans [' '] (outermost (⟨before.length,
                  (before ++ first :: inside).length⟩ :: pairs)) before =
                replaceSpans [' '] (outermost pairs) before :=
              replaceFrom_congr fun letter place _ early =>
                sound.replacement_before [' '] letter (by omega)
            have swallowed : replaceFrom [' '] (outermost (⟨before.length,
                (before ++ first :: inside).length⟩ :: pairs)) (before.length + 1)
                  (inside ++ [')']) = [] :=
              replaceFrom_eq_nil fun letter place starts ends =>
                sound.replacement_inside [' '] letter (by omega) (by simp at ends ⊢; omega)
            refine ⟨sound.close, ?_⟩
            rw [List.append_assoc]
            refine shows.extend (fun letter place early =>
              sound.replacement_before [' '] letter early) ?_
            change replaceSpans [' '] (outermost (⟨before.length, _⟩ :: pairs)) _ = _
            rw [replaceSpans_append, unchanged, List.cons_append, replaceFrom_cons,
              sound.replacement_at, swallowed]
            rfl
      · obtain ⟨notOpening, notClosing⟩ := not_isParenthesis plain
        have same : Matching.read ⟨openings, pairs⟩ letter letters.length =
            ⟨openings, pairs⟩ := by
          simp [Matching.read, notOpening, notClosing]
        rw [same]
        refine ⟨sound.grow, ?_⟩
        rw [show levels.readAll [letter] = levels.read letter from rfl, Levels.read_plain plain]
        exact stays

/-- Taking annotations away, innermost first, replaces the outermost pairs of parentheses that
match. -/
theorem blankAnnotations_eq_blankOutermost (letters : List Char) :
    blankAnnotations letters = blankOutermost letters := by
  rw [blankAnnotations_eq_text, (shows_matchParentheses letters).2.text_eq, blankOutermost]

end CallGraph.Dump
