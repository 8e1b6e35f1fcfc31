import CallGraph.Glob
import Mathlib.Data.List.Forall2
import Mathlib.Data.List.Infix

/-!
# Shell patterns for the end of a name

A star before a text makes a shell pattern for the names that end like the text.  The rest of the
pattern is read part by part, each for one character.  It stands for the text itself exactly if the
text is plain: a question mark stands for other characters too, and brackets that are closed take
fewer characters than they are written with.
-/

namespace CallGraph.Glob

variable {letters inside rest : List Char} {pieces : List Piece}

/-! ## Parts for one character each -/

/-- Some parts stand for the characters of a text, one each. -/
def Spells (pieces : List Piece) (letters : List Char) : Prop :=
  List.Forall₂ (fun piece letter => piece.accepts letter = true) pieces letters

theorem afterRun?_eq_some_iff :
    afterRun? pieces letters = some rest ↔
      ∃ spelled, Spells pieces spelled ∧ letters = spelled ++ rest := by
  induction pieces generalizing letters with
  | nil =>
      rw [afterRun?]
      simp [Spells]
  | cons piece pieces induction =>
      cases letters with
      | nil =>
          rw [afterRun?]
          simp [Spells, List.forall₂_cons_left_iff]
      | cons letter letters =>
          rw [afterRun?]
          constructor
          · intro run
            split at run
            · next accepted =>
                obtain ⟨spelled, spells, rfl⟩ := induction.mp run
                exact ⟨letter :: spelled, .cons accepted spells, rfl⟩
            · cases run
          · rintro ⟨_, spells, shape⟩
            cases spells with
            | cons accepted spells =>
                cases shape
                rw [if_pos accepted]
                exact induction.mpr ⟨_, spells, rfl⟩

/-- Parts fit the end of a text that they stand for. -/
theorem fitsEnd_iff :
    fitsEnd pieces letters = true ↔ ∃ spelled, Spells pieces spelled ∧ spelled <:+ letters := by
  rw [fitsEnd, Bool.and_eq_true, decide_eq_true_eq, Option.isSome_iff_exists]
  constructor
  · rintro ⟨short, rest, found⟩
    obtain ⟨spelled, spells, shape⟩ := afterRun?_eq_some_iff.mp found
    have lengths := congrArg List.length shape
    rw [List.length_append, List.length_drop, spells.length_eq] at lengths
    rw [spells.length_eq] at short
    cases rest with
    | nil =>
        rw [List.append_nil] at shape
        exact ⟨spelled, spells, shape ▸ List.drop_suffix _ _⟩
    | cons letter rest =>
        rw [List.length_cons] at lengths
        omega
  · rintro ⟨spelled, spells, before, rfl⟩
    have lengths := spells.length_eq
    refine ⟨by rw [List.length_append]; omega, [], afterRun?_eq_some_iff.mpr ⟨spelled, spells, ?_⟩⟩
    rw [List.length_append, lengths, Nat.add_sub_cancel, List.drop_left, List.append_nil]

/-! ## Reading -/

theorem setOf_ne_many (inside : List Char) : setOf inside ≠ .many := by
  unfold setOf
  dsimp only
  split <;> nofun

theorem suffix_of_bracketed? (closed : bracketed? letters = some (inside, rest)) :
    rest <:+ letters := by
  simp only [bracketed?] at closed
  split at closed
  · cases closed
  · next last after cut =>
      cases closed
      have tail : last :: rest <:+ letters.drop (leadOf letters) := cut ▸ List.dropWhile_suffix _
      exact (List.suffix_cons _ _).trans (tail.trans (List.drop_suffix _ _))

/-- Only a star stands for any text. -/
theorem many_not_mem_readPieces (free : '*' ∉ letters) : Piece.many ∉ readPieces letters := by
  fun_induction readPieces letters with
  | case1 => exact List.not_mem_nil
  | case2 rest => exact absurd List.mem_cons_self free
  | case3 rest induction =>
      rw [List.mem_cons, not_or] at free ⊢
      exact ⟨nofun, induction free.2⟩
  | case4 rest inside after closed induction =>
      rw [List.mem_cons, not_or] at free ⊢
      exact ⟨(setOf_ne_many inside).symm,
        induction fun star => free.2 ((suffix_of_bracketed? closed).subset star)⟩
  | case5 rest unclosed induction =>
      rw [List.mem_cons, not_or] at free ⊢
      exact ⟨nofun, induction free.2⟩
  | case6 letter rest noStar noMark noBracket induction =>
      rw [List.mem_cons, not_or] at free ⊢
      exact ⟨nofun, induction free.2⟩

/-- A star before a text makes a pattern for the names that end as the text spells. -/
theorem matchesText_star_iff {suffix name : String} (free : '*' ∉ suffix.toList) :
    matchesText ("*" ++ suffix) name = true ↔
      ∃ spelled, Spells (readPieces suffix.toList) spelled ∧ spelled <:+ name.toList := by
  have cut : (Piece.many :: readPieces suffix.toList).splitOn .many =
      [[], readPieces suffix.toList] := by
    rw [← List.nil_append (_ :: _), List.splitOn_append_cons_self, List.splitOn_nil,
      List.splitOn_eq_singleton (many_not_mem_readPieces free)]
    rfl
  rw [matchesText, String.toList_append, show "*".toList = ['*'] from rfl, List.singleton_append,
    readPieces, fits, cut, ← fitsEnd_iff]
  rfl

/-! ## Plain texts -/

/-- A text in which nothing is marked: there is no question mark, and no bracket is closed. -/
structure IsPlain (letters : List Char) : Prop where
  /-- There is no question mark. -/
  unmarked : '?' ∉ letters
  /-- No bracket is closed. -/
  open_ : ∀ rest, '[' :: rest <:+ letters → bracketed? rest = none

theorem IsPlain.tail {letter : Char} (plain : IsPlain (letter :: letters)) : IsPlain letters where
  unmarked member := plain.unmarked (List.mem_cons_of_mem _ member)
  open_ rest ends := plain.open_ rest (ends.trans (List.suffix_cons _ _))

/-- Every character of a plain text stands for itself. -/
theorem IsPlain.readPieces_eq (plain : IsPlain letters) (free : '*' ∉ letters) :
    readPieces letters = letters.map .letter := by
  fun_induction readPieces letters with
  | case1 => rfl
  | case2 rest => exact absurd List.mem_cons_self free
  | case3 rest => exact absurd List.mem_cons_self plain.unmarked
  | case4 rest inside after closed =>
      rw [plain.open_ rest (List.suffix_refl _)] at closed
      cases closed
  | case5 rest unclosed induction =>
      rw [List.map_cons, induction plain.tail fun star => free (List.mem_cons_of_mem _ star)]
  | case6 letter rest noStar noMark noBracket induction =>
      rw [List.map_cons, induction plain.tail fun star => free (List.mem_cons_of_mem _ star)]

theorem spells_letters_iff {spelled : List Char} :
    Spells (letters.map .letter) spelled ↔ letters = spelled := by
  rw [Spells, List.forall₂_map_left_iff]
  simp only [Piece.accepts, beq_iff_eq, List.forall₂_eq_eq_eq]

/-! ## Texts that are not plain -/

/-- Brackets that are closed take one character for at least three that they are written with. -/
theorem length_readPieces_le (letters : List Char) :
    (readPieces letters).length ≤ letters.length := by
  fun_induction readPieces letters with
  | case1 => exact Nat.le_refl _
  | case2 rest induction => exact Nat.succ_le_succ induction
  | case3 rest induction => exact Nat.succ_le_succ induction
  | case4 rest inside after closed induction =>
      have shorter := length_lt_of_bracketed? closed
      simp only [List.length_cons]
      omega
  | case5 rest unclosed induction => exact Nat.succ_le_succ induction
  | case6 letter rest noStar noMark noBracket induction => exact Nat.succ_le_succ induction

theorem forall_bracket_cons_iff {letter : Char} {property : List Char → Prop} :
    (∀ rest, '[' :: rest <:+ letter :: letters → property rest) ↔
      (letter = '[' → property letters) ∧ ∀ rest, '[' :: rest <:+ letters → property rest := by
  constructor
  · intro all
    refine ⟨?_, fun rest ends => all rest (ends.trans (List.suffix_cons _ _))⟩
    rintro rfl
    exact all letters (List.suffix_refl _)
  · rintro ⟨first, others⟩ rest ends
    rcases List.suffix_cons_iff.mp ends with whole | ends
    · obtain ⟨rfl, rfl⟩ := List.cons.inj whole
      exact first rfl
    · exact others rest ends

/-- In a text with as many parts as characters no bracket is closed. -/
theorem open_of_length_readPieces (same : (readPieces letters).length = letters.length) :
    ∀ rest, '[' :: rest <:+ letters → bracketed? rest = none := by
  fun_induction readPieces letters with
  | case1 =>
      intro rest ends
      cases List.suffix_nil.mp ends
  | case2 tail induction =>
      exact forall_bracket_cons_iff.mpr ⟨nofun, induction (Nat.succ.inj same)⟩
  | case3 tail induction =>
      exact forall_bracket_cons_iff.mpr ⟨nofun, induction (Nat.succ.inj same)⟩
  | case4 tail inside after closed induction =>
      have shorter := length_lt_of_bracketed? closed
      have short := length_readPieces_le after
      simp only [List.length_cons] at same
      omega
  | case5 tail unclosed induction =>
      exact forall_bracket_cons_iff.mpr ⟨fun _ => unclosed, induction (Nat.succ.inj same)⟩
  | case6 letter tail noStar noMark noBracket induction =>
      exact forall_bracket_cons_iff.mpr
        ⟨fun bracket => absurd bracket noBracket, induction (Nat.succ.inj same)⟩

/-- If no bracket is closed, the question marks of a text stand for any character. -/
theorem spells_readPieces (free : '*' ∉ letters)
    (open_ : ∀ rest, '[' :: rest <:+ letters → bracketed? rest = none) (choice : Char) :
    Spells (readPieces letters)
      (letters.map fun letter => if letter = '?' then choice else letter) := by
  fun_induction readPieces letters with
  | case1 => exact .nil
  | case2 rest => exact absurd List.mem_cons_self free
  | case3 rest induction =>
      rw [List.mem_cons, not_or] at free
      exact .cons rfl (induction free.2 (forall_bracket_cons_iff.mp open_).2)
  | case4 rest inside after closed =>
      rw [(forall_bracket_cons_iff.mp open_).1 rfl] at closed
      cases closed
  | case5 rest unclosed induction =>
      rw [List.mem_cons, not_or] at free
      exact .cons (by rfl) (induction free.2 (forall_bracket_cons_iff.mp open_).2)
  | case6 letter rest noStar noMark noBracket induction =>
      rw [List.mem_cons, not_or] at free
      refine .cons ?_ (induction free.2 (forall_bracket_cons_iff.mp open_).2)
      dsimp only
      rw [if_neg noMark]
      exact beq_self_eq_true letter

/-- A text after a star stands for the names that end with it exactly if it is plain.  Otherwise
some name is judged differently: the text itself, a shorter one, or one with another character for a
question mark. -/
theorem isPlain_iff {suffix : String} (noStar : '*' ∉ suffix.toList)
    (noSlash : '/' ∉ suffix.toList) :
    IsPlain suffix.toList ↔ ∀ name : String, '/' ∉ name.toList →
      (matchesText ("*" ++ suffix) name = true ↔ suffix.toList <:+ name.toList) := by
  constructor
  · intro plain name _
    rw [matchesText_star_iff noStar, plain.readPieces_eq noStar]
    simp only [spells_letters_iff, exists_eq_left']
  · intro literal
    have ends_of_spells {spelled : List Char} (spells : Spells (readPieces suffix.toList) spelled)
        (slashless : '/' ∉ spelled) : suffix.toList <:+ spelled := by
      have fits := (literal (String.ofList spelled) (by rwa [String.toList_ofList])).mp
        ((matchesText_star_iff noStar).mpr ⟨spelled, spells, by rw [String.toList_ofList]⟩)
      rwa [String.toList_ofList] at fits
    -- the text fits itself and spells no shorter text, so no bracket is closed
    obtain ⟨spelled, spells, ends⟩ := (matchesText_star_iff noStar).mp
      ((literal suffix noSlash).mpr (List.suffix_refl _))
    have whole := ends_of_spells spells fun member => noSlash (ends.subset member)
    have open_ := open_of_length_readPieces <| by
      rw [spells.length_eq]
      exact Nat.le_antisymm ends.length_le whole.length_le
    refine ⟨fun mark => ?_, open_⟩
    -- a question mark would also stand for another character
    have others : ∀ letter ∈ suffix.toList.map (fun letter => if letter = '?' then 'x' else letter),
        letter ≠ '?' ∧ letter ≠ '/' := by
      intro letter member
      obtain ⟨written, listed, rfl⟩ := List.mem_map.mp member
      split
      · decide
      · next unmarked => exact ⟨unmarked, fun slash => noSlash (slash ▸ listed)⟩
    have same := ends_of_spells (spells_readPieces noStar open_ 'x')
      fun member => (others _ member).2 rfl
    exact (others _ (same.subset mark)).1 rfl

end CallGraph.Glob
