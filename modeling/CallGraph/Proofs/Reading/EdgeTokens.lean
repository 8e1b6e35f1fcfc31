import CallGraph.Proofs.Reading.Annotations

/-!
# The symbols of an edge list

An edge list is read by taking away the outermost pairs of parentheses, then every slash that digits
follow, and by splitting what is left at blanks.  So the symbols come back from a list that writes
each of them with an ordinal and a remark in balanced parentheses.
-/

namespace CallGraph.Dump

open Text

/-! ## Ordinals -/

/-- Where ordinals stand in a text that begins at a position: from every slash that digits follow up
to the last of these digits. -/
def ordinalSpansFrom (position : Nat) : List Char → List Span
  | [] => []
  | letter :: rest =>
      let digits := rest.takeWhile isDigit
      if letter == '/' && !digits.isEmpty then
        ⟨position, position + digits.length⟩ :: ordinalSpansFrom (position + 1) rest
      else ordinalSpansFrom (position + 1) rest

/-- A text without its ordinals. -/
def eraseOrdinals (letters : List Char) : List Char :=
  replaceSpans [] (ordinalSpansFrom 0 letters) letters

section Ordinals

variable {letter : Char} {letters rest digits : List Char} {position place : Nat} {span : Span}
  {spans : List Span}

theorem isEmpty_takeWhile_isDigit (rest : List Char) :
    (!(rest.takeWhile isDigit).isEmpty) = rest.head?.any isDigit := by
  cases rest with
  | nil => rfl
  | cons letter rest =>
      rw [List.takeWhile_cons, List.head?_cons, Option.any_some]
      cases isDigit letter <;> rfl

theorem ordinalSpansFrom_ordinal
    (ordinal : (letter == '/' && rest.head?.any isDigit) = true) :
    ordinalSpansFrom position (letter :: rest) =
      ⟨position, position + (rest.takeWhile isDigit).length⟩ ::
        ordinalSpansFrom (position + 1) rest := by
  rw [ordinalSpansFrom, isEmpty_takeWhile_isDigit, if_pos ordinal]

theorem ordinalSpansFrom_other
    (other : ¬ (letter == '/' && rest.head?.any isDigit) = true) :
    ordinalSpansFrom position (letter :: rest) = ordinalSpansFrom (position + 1) rest := by
  rw [ordinalSpansFrom, isEmpty_takeWhile_isDigit, if_neg other]

theorem le_of_mem_ordinalSpansFrom (listed : span ∈ ordinalSpansFrom position letters) :
    position ≤ span.first := by
  induction letters generalizing position with
  | nil => cases listed
  | cons letter rest induction =>
      rw [ordinalSpansFrom] at listed
      split at listed
      · rcases List.mem_cons.mp listed with rfl | later
        · exact Nat.le_refl _
        · exact Nat.le_of_succ_le (induction later)
      · exact Nat.le_of_succ_le (induction listed)

/-- No ordinal begins with a digit. -/
theorem ordinalSpansFrom_append (areDigits : ∀ letter ∈ digits, isDigit letter = true)
    (position : Nat) (rest : List Char) :
    ordinalSpansFrom position (digits ++ rest) =
      ordinalSpansFrom (position + digits.length) rest := by
  induction digits generalizing position with
  | nil => rfl
  | cons digit digits induction =>
      have notSlash : (digit == '/') = false := by
        rw [beq_eq_false_iff_ne]
        rintro rfl
        exact absurd (areDigits '/' List.mem_cons_self) (by decide)
      have later := induction (fun other member => areDigits other (List.mem_cons_of_mem _ member))
        (position + 1)
      rw [List.cons_append, ordinalSpansFrom_other (by simp [notSlash]), later, List.length_cons,
        Nat.add_assoc, Nat.add_comm 1]

/-- A span does not matter outside of it. -/
theorem replacement_cons_of_lt (filler : List Char) (spans : List Span) (letter : Char)
    (proper : span.first ≤ span.last) (past : span.last < place) :
    replacement filler (span :: spans) letter place = replacement filler spans letter place := by
  have elsewhere : (span.first == place) = false := by
    rw [beq_eq_false_iff_ne]
    omega
  have uncovered : span.covers place = false := by
    simp only [Span.covers, Bool.and_eq_false_iff, decide_eq_false_iff_not]
    omega
  rw [replacement, replacement, List.any_cons, List.any_cons, elsewhere, uncovered, Bool.false_or,
    Bool.false_or]

theorem replacement_of_covers (letter : Char) (covered : span.covers place = true) :
    replacement [] (span :: spans) letter place = [] := by
  have inSome : (span :: spans).any (fun span => span.covers place) = true := by
    rw [List.any_cons, covered, Bool.true_or]
  rw [replacement, inSome, if_pos rfl, ite_self]

/-- Ordinals are erased where they stand. -/
theorem replaceFrom_ordinalSpansFrom (letters : List Char) (position : Nat) :
    replaceFrom [] (ordinalSpansFrom position letters) position letters =
      dropOrdinals letters := by
  fun_induction dropOrdinals letters generalizing position with
  | case1 => rfl
  | case2 letter rest ordinal induction =>
      have areDigits : ∀ letter ∈ rest.takeWhile isDigit, isDigit letter = true :=
        fun letter member => List.mem_takeWhile_imp member
      have spans := @ordinalSpansFrom_ordinal letter rest position ordinal
      have whole := List.takeWhile_append_dropWhile (p := isDigit) (l := rest)
      generalize rest.takeWhile isDigit = digits at *
      generalize rest.dropWhile isDigit = after at *
      subst whole
      rw [ordinalSpansFrom_append areDigits] at spans
      have past : replaceFrom [] (ordinalSpansFrom position (letter :: (digits ++ after)))
          (position + 1 + digits.length) after = dropOrdinals after := by
        rw [← induction (position + 1 + digits.length), spans]
        refine replaceFrom_congr fun letter place starts _ => ?_
        exact replacement_cons_of_lt [] _ letter (Nat.le_add_right _ _) (by dsimp only; omega)
      have covered (other : Char) (place : Nat) (starts : position ≤ place)
          (ends : place ≤ position + digits.length) :
          replacement [] (ordinalSpansFrom position (letter :: (digits ++ after))) other place =
            [] := by
        rw [spans]
        exact replacement_of_covers other (by simp [Span.covers, starts, ends])
      have swallowed : replaceFrom [] (ordinalSpansFrom position (letter :: (digits ++ after)))
          (position + 1) digits = [] :=
        replaceFrom_eq_nil fun other place starts ends =>
          covered other place (by omega) (by omega)
      rw [replaceFrom_cons, replaceFrom_append, past, swallowed, List.nil_append,
        covered letter position (Nat.le_refl _) (Nat.le_add_right _ _), List.nil_append]
  | case3 letter rest other induction =>
      have spans := @ordinalSpansFrom_other letter rest position other
      have stays : replacement [] (ordinalSpansFrom (position + 1) rest) letter position =
          [letter] := by
        refine replacement_of_uncovered (fun span listed => ?_) letter
        have later := le_of_mem_ordinalSpansFrom listed
        simp only [Span.covers, Bool.and_eq_false_iff, decide_eq_false_iff_not]
        omega
      rw [replaceFrom_cons, spans, stays, induction, List.singleton_append]

theorem eraseOrdinals_eq (letters : List Char) : eraseOrdinals letters = dropOrdinals letters :=
  replaceFrom_ordinalSpansFrom letters 0

end Ordinals

/-! ## Lists -/

namespace Mention

/-- Several ends of edges, with a space between them. -/
def line (mentions : List Mention) : String := " ".intercalate (mentions.map text)

variable {mention : Mention} {mentions : List Mention}

theorem texts_cons (mention : Mention) (mentions : List Mention) :
    texts (mention :: mentions) = " " ++ line (mention :: mentions) := by
  induction mentions generalizing mention with
  | nil => simp [texts, line]
  | cons next mentions induction =>
      have later := induction next
      rw [texts, List.map_cons, String.join_cons, ← texts, later, line, line, List.map_cons,
        List.map_cons, List.map_cons, String.intercalate_cons_cons, String.append_assoc,
        String.append_assoc]

theorem edgeTokens_line (legible : ∀ mention ∈ mentions, mention.Legible) :
    edgeTokens (line mentions) = (mentions.map symbol).filter (· ≠ "") := by
  rw [← edgeTokens_texts legible]
  cases mentions with
  | nil => rfl
  | cons mention mentions =>
      have closed := closes_texts legible
      have letters : (texts (mention :: mentions)).toList =
          ' ' :: (line (mention :: mentions)).toList := by
        rw [texts_cons, String.toList_append]
        rfl
      rw [letters, closes_plain (by decide)] at closed
      rw [edgeTokens_eq closed, edgeTokens_eq (closes_texts legible), letters,
        words_outside_cons (by decide)]

end Mention

/-- An edge list is read exactly.  Taking annotations away ends and leaves the list with a space in
place of every outermost pair of parentheses that match, those without a partner left where they
stand; the symbols are the words of that without its ordinals.  So the symbols of a list that writes
each with an ordinal and a remark in balanced parentheses are read back; an empty text is no
symbol. -/
theorem edgeTokens_exact :
    (∀ letters, blankAnnotations letters = blankOutermost letters ∧
      (∃ rounds ≤ letters.length, blankInnermost^[rounds] letters = blankOutermost letters) ∧
      blankInnermost (blankOutermost letters) = blankOutermost letters) ∧
    (∀ value, edgeTokens value =
      (wordsOf (eraseOrdinals (blankOutermost value.toList))).map String.ofList) ∧
    ∀ mentions : List Mention, (∀ mention ∈ mentions, mention.Legible) →
      edgeTokens (Mention.line mentions) = (mentions.map Mention.symbol).filter (· ≠ "") ∧
      ((∀ mention ∈ mentions, mention.symbol ≠ "") →
        edgeTokens (Mention.line mentions) = mentions.map Mention.symbol) := by
  refine ⟨fun letters => ?_, fun value => ?_, fun mentions legible => ?_⟩
  · rw [← blankAnnotations_eq_blankOutermost]
    exact ⟨rfl, exists_rounds letters⟩
  · rw [edgeTokens, eraseOrdinals_eq, blankAnnotations_eq_blankOutermost]
  · have read := Mention.edgeTokens_line legible
    exact ⟨read, fun nonempty => read.trans (Mention.filter_symbols nonempty)⟩

/-- A parenthesis that nothing closes stays, and so does one that nothing opens. -/
example : blankOutermost "a) (b (c (d)) e".toList = "a) (b   e".toList := by decide

/-- Ends of edges with nested remarks, with several and with none. -/
def nestedRemarks : List Mention :=
  [⟨"qux", "3", " (1073741824 (estimated locally),1.00 per call)"⟩, ⟨"operator@2", "12", ""⟩,
    ⟨"bar", "7", "(a(b(c))) (inlined)"⟩]

/-- Their symbols are read back. -/
theorem edgeTokens_nestedRemarks :
    (∀ mention ∈ nestedRemarks, mention.Legible) ∧
      edgeTokens (Mention.line nestedRemarks) = ["qux", "operator@2", "bar"] := by
  have legible : ∀ mention ∈ nestedRemarks, mention.Legible := by decide
  exact ⟨legible, (edgeTokens_exact.2.2 nestedRemarks legible).2 (by decide)⟩

end CallGraph.Dump
