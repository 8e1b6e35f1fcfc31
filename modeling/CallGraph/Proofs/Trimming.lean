import CallGraph.Text.Blank
import CallGraph.Text.Lines
import Mathlib.Data.List.DropRight
import Mathlib.Data.List.Infix

/-!
# Trimmed texts and lines

Trimming leaves a text as it is iff neither of its ends is blank.  Lines that are written one after
the other are read back iff no line has a line boundary in it, and no line that is read has one.
-/

namespace CallGraph

namespace Text

/-- What holds of all letters of a text is decided along the text, not over all characters. -/
instance (priority := high) decidableForallLetter {holds : Char → Prop} [DecidablePred holds]
    (letters : List Char) : Decidable (∀ letter ∈ letters, holds letter) :=
  List.decidableBAll holds letters

/-! ## Trimming -/

section Trimming

variable {α : Type} {drop : α → Bool} {letters : List α}

theorem dropTrailing_eq_self (last : ∀ letter ∈ letters.getLast?, drop letter = false) :
    dropTrailing drop letters = letters := by
  refine List.rdropWhile_eq_self_iff.mpr fun nonempty => ?_
  simp [last _ (List.getLast?_eq_some_getLast nonempty)]

theorem last_dropTrailing :
    ∀ letter ∈ (dropTrailing drop letters).getLast?, drop letter = false := by
  intro letter last
  have first := List.head?_dropWhile_not drop letters.reverse
  rw [dropTrailing, List.getLast?_reverse, Option.mem_def] at last
  rw [last] at first
  exact first

theorem dropTrailing_isPrefix : dropTrailing drop letters <+: letters :=
  List.rdropWhile_prefix drop letters

theorem mem_of_mem_dropTrailing {letter : α} (member : letter ∈ dropTrailing drop letters) :
    letter ∈ letters :=
  dropTrailing_isPrefix.subset member

theorem mem_of_mem_dropAround {letter : α} (member : letter ∈ dropAround drop letters) :
    letter ∈ letters :=
  (List.dropWhile_suffix drop).subset (mem_of_mem_dropTrailing member)

theorem head_dropWhile : ∀ letter ∈ (letters.dropWhile drop).head?, drop letter = false := by
  intro letter first
  have notDropped := List.head?_dropWhile_not drop letters
  rw [Option.mem_def] at first
  rw [first] at notDropped
  exact notDropped

theorem head_dropAround : ∀ letter ∈ (dropAround drop letters).head?, drop letter = false := by
  intro letter first
  obtain ⟨others, shape⟩ := List.head?_eq_some_iff.mp first
  obtain ⟨trailing, whole⟩ := @dropTrailing_isPrefix _ drop (letters.dropWhile drop)
  apply head_dropWhile letter
  rw [← whole, show dropTrailing drop (letters.dropWhile drop) = letter :: others from shape]
  rfl

theorem dropWhile_eq_self (first : ∀ letter ∈ letters.head?, drop letter = false) :
    letters.dropWhile drop = letters := by
  cases letters with
  | nil => rfl
  | cons letter others => rw [List.dropWhile_cons, first letter rfl, if_neg Bool.false_ne_true]

/-- Nothing is dropped from a text iff neither its first nor its last letter is. -/
theorem dropAround_eq_self_iff :
    dropAround drop letters = letters ↔
      (∀ letter ∈ letters.head?, drop letter = false) ∧
        ∀ letter ∈ letters.getLast?, drop letter = false := by
  constructor
  · intro same
    rw [← same]
    exact ⟨head_dropAround, last_dropTrailing⟩
  · rintro ⟨first, last⟩
    rw [dropAround, dropWhile_eq_self first, dropTrailing_eq_self last]

theorem dropAround_dropAround :
    dropAround drop (dropAround drop letters) = dropAround drop letters :=
  dropAround_eq_self_iff.mpr ⟨head_dropAround, last_dropTrailing⟩

/-- Only the ends of a text matter to trimming. -/
theorem dropAround_append_append {left right : List α} (between : List α)
    (left_ne : left ≠ []) (right_ne : right ≠ [])
    (leftTrimmed : dropAround drop left = left) (rightTrimmed : dropAround drop right = right) :
    dropAround drop (left ++ between ++ right) = left ++ between ++ right := by
  have first := (dropAround_eq_self_iff.mp leftTrimmed).1
  have last := (dropAround_eq_self_iff.mp rightTrimmed).2
  rw [dropAround_eq_self_iff, List.append_assoc, List.head?_append_of_ne_nil _ left_ne,
    ← List.append_assoc, List.getLast?_append_of_ne_nil _ right_ne]
  exact ⟨first, last⟩

theorem dropTrailing_append_cons {front back : List α} {last : α} (kept : drop last = false) :
    dropTrailing drop (front ++ last :: back) = front ++ last :: dropTrailing drop back := by
  have reversed : (front ++ last :: back).reverse = back.reverse ++ last :: front.reverse := by
    simp
  rw [dropTrailing, reversed, List.dropWhile_append]
  split
  · next empty =>
      rw [List.isEmpty_iff] at empty
      simp [dropTrailing, empty, kept]
  · simp [dropTrailing]

theorem dropTrailing_eq_nil (dropped : ∀ letter ∈ letters, drop letter = true) :
    dropTrailing drop letters = [] :=
  List.rdropWhile_eq_nil_iff.mpr dropped

/-- It does not matter which end is trimmed first. -/
theorem dropWhile_dropTrailing :
    (dropTrailing drop letters).dropWhile drop = dropAround drop letters := by
  have whole := List.takeWhile_append_dropWhile (p := drop) (l := letters)
  have lead : ∀ letter ∈ letters.takeWhile drop, drop letter = true := fun _ member =>
    List.mem_takeWhile_imp member
  rw [dropAround]
  cases rest : letters.dropWhile drop with
  | nil =>
      rw [rest, List.append_nil] at whole
      rw [dropTrailing_eq_nil (whole ▸ lead)]
      rfl
  | cons first others =>
      have kept : drop first = false := by
        refine @head_dropWhile _ drop letters first ?_
        rw [rest]
        rfl
      rw [rest] at whole
      have alone := @dropTrailing_append_cons _ drop [] others first kept
      rw [List.nil_append, List.nil_append] at alone
      rw [← whole, dropTrailing_append_cons kept, List.dropWhile_append_of_pos lead,
        List.dropWhile_cons_of_neg (by simp [kept]), alone]

theorem infix_of_append {front back word : List α} (nonempty : word ≠ [])
    (kept : ∀ letter ∈ word, drop letter = false) (dropped : ∀ letter ∈ front, drop letter = true)
    (occurs : word <:+: front ++ back) : word <:+: back := by
  induction front with
  | nil => exact occurs
  | cons letter front induction =>
      have later := induction fun other member => dropped other (List.mem_cons_of_mem _ member)
      rw [List.cons_append, List.infix_cons_iff] at occurs
      rcases occurs with ⟨rest, starts⟩ | inside
      · obtain ⟨first, others, rfl⟩ := List.exists_cons_of_ne_nil nonempty
        obtain rfl : first = letter := (List.cons.inj starts).1
        have clash := kept first List.mem_cons_self
        rw [dropped first List.mem_cons_self] at clash
        cases clash
      · exact later inside

theorem prefix_of_prefix_append_cons {word front back : List α} {letter : α}
    (elsewhere : letter ∉ word) (starts : word <+: front ++ letter :: back) : word <+: front := by
  induction front generalizing word with
  | nil =>
      cases word with
      | nil => exact List.nil_prefix
      | cons first word =>
          obtain ⟨rfl, -⟩ := List.cons_prefix_cons.mp starts
          exact absurd List.mem_cons_self elsewhere
  | cons head front induction =>
      cases word with
      | nil => exact List.nil_prefix
      | cons first word =>
          obtain ⟨rfl, rest⟩ := List.cons_prefix_cons.mp starts
          rw [List.cons_prefix_cons]
          exact ⟨rfl, induction (fun member => elsewhere (List.mem_cons_of_mem _ member)) rest⟩

/-- A word does not straddle a letter that it does not have. -/
theorem not_infix_append_cons {word front back : List α} {letter : α}
    (elsewhere : letter ∉ word) (inFront : ¬ word <:+: front) (inBack : ¬ word <:+: back) :
    ¬ word <:+: front ++ letter :: back := by
  intro occurs
  induction front with
  | nil =>
      rcases List.infix_cons_iff.mp occurs with starts | inside
      · exact inFront (@prefix_of_prefix_append_cons _ _ [] _ _ elsewhere starts).isInfix
      · exact inBack inside
  | cons head front induction =>
      rcases List.infix_cons_iff.mp occurs with starts | inside
      · apply inFront
        exact (@prefix_of_prefix_append_cons _ _ (head :: front) _ _ elsewhere starts).isInfix
      · exact induction (fun earlier => inFront (List.infix_cons earlier)) inside

/-- Of a word without dropped letters, trimming takes nothing away. -/
theorem infix_dropAround {word : List α} (nonempty : word ≠ [])
    (kept : ∀ letter ∈ word, drop letter = false) :
    word <:+: dropAround drop letters ↔ word <:+: letters := by
  constructor
  · intro occurs
    exact occurs.trans (dropTrailing_isPrefix.isInfix.trans (List.dropWhile_suffix _).isInfix)
  · intro occurs
    rw [← List.takeWhile_append_dropWhile (p := drop) (l := letters)] at occurs
    have front := infix_of_append nonempty kept (fun _ => List.mem_takeWhile_imp) occurs
    rw [← List.reverse_infix, ← List.takeWhile_append_dropWhile (p := drop)
      (l := (letters.dropWhile drop).reverse)] at front
    have back := infix_of_append (by simpa using nonempty)
      (fun letter member => kept letter (List.mem_reverse.mp member))
      (fun _ => List.mem_takeWhile_imp) front
    rw [← List.reverse_infix, List.reverse_reverse] at back
    exact back

end Trimming

theorem trim_eq_self_iff {text : String} :
    trim text = text ↔ dropAround isBlank text.toList = text.toList := by
  rw [trim, ← String.toList_inj, String.toList_ofList]

theorem trim_trim (text : String) : trim (trim text) = trim text := by
  rw [trim_eq_self_iff, trim, String.toList_ofList]
  exact dropAround_dropAround

/-! ## Lines -/

/-- A text without line boundaries. -/
def OneLine (text : String) : Prop := ∀ letter ∈ text.toList, isLineBreak letter = false

instance (text : String) : Decidable (OneLine text) :=
  List.decidableBAll _ text.toList

theorem OneLine.newline_not_mem {text : String} (oneLine : OneLine text) : '\n' ∉ text.toList :=
  fun member => absurd (oneLine '\n' member) (by decide)

theorem OneLine.trim {text : String} (oneLine : OneLine text) : OneLine (trim text) := by
  intro letter member
  rw [Text.trim, String.toList_ofList] at member
  exact oneLine letter (mem_of_mem_dropAround member)

theorem OneLine.append {left right : String} (leftOneLine : OneLine left)
    (rightOneLine : OneLine right) : OneLine (left ++ right) := by
  intro letter member
  rw [String.toList_append] at member
  rcases List.mem_append.mp member with inLeft | inRight
  · exact leftOneLine letter inLeft
  · exact rightOneLine letter inRight

theorem OneLine.intercalate {separator : String} {items : List String}
    (separatorOneLine : OneLine separator) (oneLine : ∀ item ∈ items, OneLine item) :
    OneLine (separator.intercalate items) := by
  induction items with
  | nil => exact fun letter member => by simp at member
  | cons first items induction =>
      have later := induction fun item member => oneLine item (List.mem_cons_of_mem _ member)
      have start := oneLine first List.mem_cons_self
      cases items with
      | nil => simpa using start
      | cons second items =>
          rw [String.intercalate_cons_cons]
          exact (start.append separatorOneLine).append later

theorem splitLinesFrom_cons {letter : Char} (line rest : List Char) (notReturn : letter ≠ '\r') :
    splitLinesFrom line (letter :: rest) =
      if isLineBreak letter then line.reverse :: splitLinesFrom [] rest
      else splitLinesFrom (letter :: line) rest := by
  rw [splitLinesFrom.eq_3]
  intro _ isReturn
  exact absurd isReturn notReturn

theorem splitLinesFrom_append_newline {letters : List Char} (line rest : List Char)
    (oneLine : ∀ letter ∈ letters, isLineBreak letter = false) :
    splitLinesFrom line (letters ++ '\n' :: rest) =
      (line.reverse ++ letters) :: splitLinesFrom [] rest := by
  induction letters generalizing line with
  | nil =>
      rw [List.nil_append, splitLinesFrom_cons _ _ (by decide), List.append_nil]
      rfl
  | cons letter letters induction =>
      have notBreak := oneLine letter List.mem_cons_self
      have notReturn : letter ≠ '\r' := by
        rintro rfl
        exact absurd notBreak (by decide)
      rw [List.cons_append, splitLinesFrom_cons _ _ notReturn, notBreak,
        if_neg Bool.false_ne_true,
        induction _ fun other member => oneLine other (List.mem_cons_of_mem _ member)]
      simp

/-- Lines that are written one after the other are read back, whatever follows them. -/
theorem splitLines_join_append {lines : List String} (oneLine : ∀ line ∈ lines, OneLine line)
    (rest : String) :
    splitLines (String.join (lines.map fun line => line ++ "\n") ++ rest) =
      lines ++ splitLines rest := by
  have letters : splitLinesFrom []
      ((lines.map fun line => line ++ "\n").flatMap String.toList ++ rest.toList) =
        lines.map String.toList ++ splitLinesFrom [] rest.toList := by
    induction lines with
    | nil => rfl
    | cons line lines induction =>
        have later := induction fun other member => oneLine other (List.mem_cons_of_mem _ member)
        have first := splitLinesFrom_append_newline []
          ((lines.map fun line => line ++ "\n").flatMap String.toList ++ rest.toList)
          (oneLine line List.mem_cons_self)
        rw [later] at first
        simpa using first
  rw [splitLines, String.toList_append, String.toList_join, letters, List.map_append, List.map_map]
  simp [splitLines]

theorem splitLines_join {lines : List String} (oneLine : ∀ line ∈ lines, OneLine line) :
    splitLines (String.join (lines.map fun line => line ++ "\n")) = lines := by
  have whole := splitLines_join_append oneLine ""
  rw [String.append_empty] at whole
  rw [whole, splitLines, String.toList_empty, splitLinesFrom]
  simp

theorem oneLine_of_mem_splitLinesFrom {line letters : List Char}
    (before : ∀ letter ∈ line, isLineBreak letter = false) :
    ∀ piece ∈ splitLinesFrom line letters, ∀ letter ∈ piece, isLineBreak letter = false := by
  fun_induction splitLinesFrom line letters with
  | case1 => simp
  | case2 => simpa using before
  | case3 line rest induction =>
      intro piece member
      rcases List.mem_cons.mp member with rfl | later
      · simpa using before
      · exact induction (by simp) piece later
  | case4 line letter rest _ _ induction =>
      intro piece member
      rcases List.mem_cons.mp member with rfl | later
      · simpa using before
      · exact induction (by simp) piece later
  | case5 line letter rest _ notBreak induction =>
      refine induction fun other member => ?_
      rcases List.mem_cons.mp member with rfl | earlier
      · simpa using notBreak
      · exact before other earlier

theorem oneLine_of_mem_splitLines {text line : String} (member : line ∈ splitLines text) :
    OneLine line := by
  obtain ⟨letters, listed, rfl⟩ := List.mem_map.mp member
  intro letter inside
  rw [String.toList_ofList] at inside
  exact oneLine_of_mem_splitLinesFrom (by simp) letters listed letter inside

theorem occursIn_iff_infix {part letters : List Char} :
    occursIn part letters = true ↔ part <:+: letters := by
  induction letters with
  | nil => simp [occursIn]
  | cons letter letters induction =>
      rw [occursIn, Bool.or_eq_true, List.isPrefixOf_iff_prefix, induction, List.infix_cons_iff]

/-- A word without blanks stands in a text iff it stands in the trimmed text. -/
theorem contains_trim {text word : String} (nonempty : word ≠ "")
    (visible : ∀ letter ∈ word.toList, isBlank letter = false) :
    contains (trim text) word = contains text word := by
  have letters : word.toList ≠ [] := by simpa using nonempty
  rw [Bool.eq_iff_iff, contains, contains, occursIn_iff_infix, occursIn_iff_infix, trim,
    String.toList_ofList]
  exact infix_dropAround letters visible

/-! ## Letters -/

theorem isBlank_of_isLineBreak {letter : Char} (breaks : isLineBreak letter = true) :
    isBlank letter = true := by
  simp only [isLineBreak, Bool.or_eq_true, Bool.and_eq_true, decide_eq_true_eq, beq_iff_eq]
    at breaks
  simp only [isBlank, Bool.or_eq_true, Bool.and_eq_true, decide_eq_true_eq, beq_iff_eq]
  omega

theorem oneLine_of_visible {text : String}
    (visible : ∀ letter ∈ text.toList, isBlank letter = false) : OneLine text := by
  intro letter member
  rw [Bool.eq_false_iff]
  intro breaks
  simpa [visible letter member] using isBlank_of_isLineBreak breaks

end Text

end CallGraph
