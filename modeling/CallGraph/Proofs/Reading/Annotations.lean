import CallGraph.Proofs.Reading.Parentheses
import CallGraph.Proofs.Trimming
import CallGraph.Symbol.Key
import Mathlib.Tactic.MkIffOfInductiveProp

/-!
# Annotations

Taking annotations away innermost first leaves, of a text with balanced parentheses, what stands
outside of all parentheses, with a space for each outermost pair.  With that, the list of symbols
is read back from a line that writes every symbol with an ordinal and an annotation.
-/

namespace CallGraph.Dump

open Text

/-! ## Balanced parentheses -/

/-- Whether the parentheses of a text are balanced when `depth` of them are open before it. -/
def closes : Nat → List Char → Bool
  | depth, [] => depth == 0
  | depth, letter :: rest =>
      if letter == '(' then closes (depth + 1) rest
      else if letter == ')' then
        match depth with
        | 0 => false
        | below + 1 => closes below rest
      else closes depth rest

/-- What stands outside of all parentheses when `depth` of them are open before the text; an
outermost pair leaves a space. -/
def outside : Nat → List Char → List Char
  | _, [] => []
  | depth, letter :: rest =>
      if letter == '(' then (if depth = 0 then [' '] else []) ++ outside (depth + 1) rest
      else if letter == ')' then outside (depth - 1) rest
      else (if depth = 0 then [letter] else []) ++ outside depth rest

section Scan

variable {depth : Nat} {letter : Char} {letters rest : List Char}

theorem closes_opening : closes depth ('(' :: rest) = closes (depth + 1) rest := rfl

theorem closes_closing : closes (depth + 1) (')' :: rest) = closes depth rest := rfl

theorem closes_plain (plain : isParenthesis letter = false) :
    closes depth (letter :: rest) = closes depth rest := by
  obtain ⟨notOpening, notClosing⟩ := not_isParenthesis plain
  simp [closes, notOpening, notClosing]

theorem outside_opening :
    outside depth ('(' :: rest) =
      (if depth = 0 then [' '] else []) ++ outside (depth + 1) rest := rfl

theorem outside_closing : outside (depth + 1) (')' :: rest) = outside depth rest := rfl

theorem outside_plain (plain : isParenthesis letter = false) :
    outside depth (letter :: rest) =
      (if depth = 0 then [letter] else []) ++ outside depth rest := by
  obtain ⟨notOpening, notClosing⟩ := not_isParenthesis plain
  simp [outside, notOpening, notClosing]

theorem closes_append (closed : closes depth letters = true) (rest : List Char) :
    closes depth (letters ++ rest) = closes 0 rest := by
  induction letters generalizing depth with
  | nil =>
      obtain rfl : depth = 0 := by simpa [closes] using closed
      rfl
  | cons letter letters induction =>
      rw [List.cons_append]
      rcases parenthesis_cases letter with rfl | rfl | plain
      · exact induction (closes_opening ▸ closed)
      · cases depth with
        | zero => cases closed
        | succ below => exact induction (closes_closing ▸ closed)
      · rw [closes_plain plain] at closed ⊢
        exact induction closed

theorem outside_append (closed : closes depth letters = true) (rest : List Char) :
    outside depth (letters ++ rest) = outside depth letters ++ outside 0 rest := by
  induction letters generalizing depth with
  | nil =>
      obtain rfl : depth = 0 := by simpa [closes] using closed
      rfl
  | cons letter letters induction =>
      rw [List.cons_append]
      rcases parenthesis_cases letter with rfl | rfl | plain
      · rw [outside_opening, outside_opening, induction (closes_opening ▸ closed),
          List.append_assoc]
      · cases depth with
        | zero => cases closed
        | succ below =>
            rw [outside_closing, outside_closing, induction (closes_closing ▸ closed)]
      · rw [closes_plain plain] at closed
        rw [outside_plain plain, outside_plain plain, induction closed, List.append_assoc]

theorem closes_concat (plain : isParenthesis letter = false) (letters : List Char) :
    closes depth (letters ++ [letter]) = closes depth letters := by
  induction letters generalizing depth with
  | nil => exact closes_plain plain
  | cons first letters induction =>
      cases depth <;> simp [closes, induction]

theorem closes_of_plain (plain : ∀ letter ∈ letters, isParenthesis letter = false) :
    closes 0 letters = true := by
  induction letters with
  | nil => rfl
  | cons letter letters induction =>
      rw [closes_plain (plain letter List.mem_cons_self)]
      exact induction fun other member => plain other (List.mem_cons_of_mem _ member)

theorem outside_of_plain (plain : ∀ letter ∈ letters, isParenthesis letter = false) :
    outside 0 letters = letters := by
  induction letters with
  | nil => rfl
  | cons letter letters induction =>
      rw [outside_plain (plain letter List.mem_cons_self),
        induction fun other member => plain other (List.mem_cons_of_mem _ member)]
      rfl

/-- Where the text closes what is open, nothing of it stays open; of all that came since the first
parenthesis that it closes, a space is left. -/
theorem readAll_of_closes (letters : List Char) :
    (∀ top below, closes 0 letters = true →
      Levels.readAll ⟨top, below⟩ letters = ⟨top ++ outside 0 letters, below⟩) ∧
    ∀ top inner outer below, closes (List.length inner + 1) letters = true →
      Levels.readAll ⟨top, inner ++ outer :: below⟩ letters =
        ⟨outer ++ ' ' :: outside (List.length inner + 1) letters, below⟩ := by
  induction letters with
  | nil =>
      refine ⟨fun top below _ => ?_, nofun⟩
      rw [outside, List.append_nil]
      rfl
  | cons letter letters induction =>
      obtain ⟨level, deeper⟩ := induction
      constructor
      · intro top below closed
        rw [Levels.readAll_cons]
        rcases parenthesis_cases letter with rfl | rfl | plain
        · exact deeper [] [] top below closed
        · cases closed
        · rw [closes_plain plain] at closed
          rw [Levels.read_plain plain, level _ _ closed, outside_plain plain, if_pos rfl,
            List.append_assoc]
      · intro top inner outer below closed
        rw [Levels.readAll_cons]
        rcases parenthesis_cases letter with rfl | rfl | plain
        · exact deeper [] (top :: inner) outer below closed
        · cases inner with
          | nil =>
              rw [List.nil_append, Levels.read_closing, level _ _ closed, List.append_assoc]
              rfl
          | cons last inner => exact deeper (last ++ [' ']) inner outer below closed
        · rw [closes_plain plain] at closed
          rw [Levels.read_plain plain, deeper _ _ _ _ closed, outside_plain plain,
            if_neg (Nat.succ_ne_zero _), List.nil_append]

/-- Of a text with balanced parentheses, what stands outside of them is left. -/
theorem blankAnnotations_eq_outside (closed : closes 0 letters = true) :
    blankAnnotations letters = outside 0 letters := by
  rw [blankAnnotations_eq_text, (readAll_of_closes letters).1 [] [] closed]
  rfl

end Scan

/-! ## Ordinals and words -/

theorem isParenthesis_of_isBlank {letter : Char} (blank : isBlank letter = true) :
    isParenthesis letter = false := by
  rcases parenthesis_cases letter with rfl | rfl | plain
  · exact absurd blank (by decide)
  · exact absurd blank (by decide)
  · exact plain

theorem ne_slash_of_isBlank {letter : Char} (blank : isBlank letter = true) : letter ≠ '/' := by
  rintro rfl
  exact absurd blank (by decide)

theorem isDigit_of_isBlank {letter : Char} (blank : isBlank letter = true) :
    isDigit letter = false := by
  simp only [isBlank, Bool.or_eq_true, Bool.and_eq_true, decide_eq_true_eq, beq_iff_eq] at blank
  simp only [isDigit, decimalZeros, List.any_cons, List.any_nil, Bool.or_false,
    Bool.or_eq_false_iff, Bool.and_eq_false_iff, decide_eq_false_iff_not]
  omega

theorem dropOrdinals_cons {letter : Char} (rest : List Char) (notSlash : letter ≠ '/') :
    dropOrdinals (letter :: rest) = letter :: dropOrdinals rest := by
  rw [dropOrdinals]
  simp [notSlash]

theorem dropOrdinals_append {letters : List Char} (rest : List Char) (noSlash : '/' ∉ letters) :
    dropOrdinals (letters ++ rest) = letters ++ dropOrdinals rest := by
  induction letters with
  | nil => rfl
  | cons letter letters induction =>
      rw [List.mem_cons, not_or] at noSlash
      rw [List.cons_append, dropOrdinals_cons _ (Ne.symm noSlash.1), induction noSlash.2,
        List.cons_append]

/-- An ordinal goes with its slash. -/
theorem dropOrdinals_ordinal {ordinal rest : List Char} (nonempty : ordinal ≠ [])
    (digits : ∀ letter ∈ ordinal, isDigit letter = true)
    (ended : ∀ letter ∈ rest.head?, isDigit letter = false) :
    dropOrdinals ('/' :: (ordinal ++ rest)) = dropOrdinals rest := by
  obtain ⟨first, others, rfl⟩ := List.exists_cons_of_ne_nil nonempty
  have begins : ((first :: others ++ rest).head?.any isDigit) = true := by
    simp [digits first List.mem_cons_self]
  rw [dropOrdinals, begins, if_pos (by simp), List.dropWhile_append_of_pos digits,
    dropWhile_eq_self ended]

theorem head_dropOrdinals {letters : List Char}
    (blank : ∀ letter ∈ letters.head?, isBlank letter = true) :
    ∀ letter ∈ (dropOrdinals letters).head?, isBlank letter = true := by
  cases letters with
  | nil => simp [dropOrdinals]
  | cons letter letters =>
      have first := blank letter rfl
      rw [dropOrdinals_cons _ (ne_slash_of_isBlank first)]
      rintro _ ⟨⟩
      exact first

theorem head_append_blank {blanks rest : List Char}
    (blank : ∀ letter ∈ blanks, isBlank letter = true)
    (ended : ∀ letter ∈ rest.head?, isBlank letter = true) :
    ∀ letter ∈ (blanks ++ rest).head?, isBlank letter = true := by
  intro letter first
  cases blanks with
  | nil => exact ended letter first
  | cons head blanks =>
      obtain rfl : head = letter := by simpa using first
      exact blank head List.mem_cons_self

theorem dropOrdinals_concat {letter : Char} (letters : List Char) (notSlash : letter ≠ '/')
    (notDigit : isDigit letter = false) :
    dropOrdinals (letters ++ [letter]) = dropOrdinals letters ++ [letter] := by
  have begins : ∀ rest : List Char,
      (rest ++ [letter]).head?.any isDigit = rest.head?.any isDigit := by
    intro rest
    cases rest <;> simp [notDigit]
  have remains : ∀ rest : List Char,
      (rest ++ [letter]).dropWhile isDigit = rest.dropWhile isDigit ++ [letter] := by
    intro rest
    rw [List.dropWhile_append]
    split <;> simp_all
  fun_induction dropOrdinals letters with
  | case1 => rw [List.nil_append, dropOrdinals_cons _ notSlash, dropOrdinals]
  | case2 head rest ordinal induction =>
      rw [List.cons_append, dropOrdinals, begins, if_pos ordinal, remains, induction]
  | case3 head rest other induction =>
      rw [List.cons_append, dropOrdinals, begins, if_neg other, induction, List.cons_append]

theorem wordsOf_cons_blank {letter : Char} (blank : isBlank letter = true) (rest : List Char) :
    wordsOf (letter :: rest) = wordsOf rest := by
  have split := @List.splitOnP_append_cons_of_forall_mem _ isBlank [] (by simp) letter blank rest
  rw [List.nil_append] at split
  simp [wordsOf, split]

theorem wordsOf_append_blank {blanks rest : List Char}
    (blank : ∀ letter ∈ blanks, isBlank letter = true) :
    wordsOf (blanks ++ rest) = wordsOf rest := by
  induction blanks with
  | nil => rfl
  | cons head blanks induction =>
      rw [List.cons_append, wordsOf_cons_blank (blank head List.mem_cons_self)]
      exact induction fun letter member => blank letter (List.mem_cons_of_mem _ member)

theorem wordsOf_concat_blank {letter : Char} (blank : isBlank letter = true)
    (letters : List Char) : wordsOf (letters ++ [letter]) = wordsOf letters := by
  simp [wordsOf, List.splitOnP_append_cons letters [] blank]

theorem wordsOf_append_word {word rest : List Char}
    (visible : ∀ letter ∈ word, isBlank letter = false)
    (ended : ∀ letter ∈ rest.head?, isBlank letter = true) :
    wordsOf (word ++ rest) = [word].filter (fun word => !word.isEmpty) ++ wordsOf rest := by
  cases rest with
  | nil => simp [wordsOf, List.splitOnP_eq_singleton visible]
  | cons letter rest =>
      have blank := ended letter rfl
      rw [wordsOf_cons_blank blank, wordsOf,
        List.splitOnP_append_cons_of_forall_mem visible letter blank, wordsOf,
        ← List.singleton_append, List.filter_append]

/-! ## Edge lists -/

/-- The bare symbols of a list with balanced parentheses. -/
theorem edgeTokens_eq {value : String} (closed : closes 0 value.toList = true) :
    edgeTokens value =
      (wordsOf (dropOrdinals (outside 0 value.toList))).map String.ofList := by
  rw [edgeTokens, blankAnnotations_eq_outside closed]

section Trim

variable {letter : Char} {letters : List Char}

theorem words_outside_cons (blank : isBlank letter = true) (letters : List Char) :
    wordsOf (dropOrdinals (outside 0 (letter :: letters))) =
      wordsOf (dropOrdinals (outside 0 letters)) := by
  rw [outside_plain (isParenthesis_of_isBlank blank), if_pos rfl, List.singleton_append,
    dropOrdinals_cons _ (ne_slash_of_isBlank blank), wordsOf_cons_blank blank]

theorem words_outside_concat (blank : isBlank letter = true)
    (closed : closes 0 letters = true) :
    wordsOf (dropOrdinals (outside 0 (letters ++ [letter]))) =
      wordsOf (dropOrdinals (outside 0 letters)) := by
  have plain : ∀ other ∈ [letter], isParenthesis other = false := by
    intro other member
    rw [List.mem_singleton.mp member]
    exact isParenthesis_of_isBlank blank
  rw [outside_append closed, outside_of_plain plain,
    dropOrdinals_concat _ (ne_slash_of_isBlank blank) (isDigit_of_isBlank blank),
    wordsOf_concat_blank blank]

theorem words_dropWhile_blank (closed : closes 0 letters = true) :
    closes 0 (letters.dropWhile isBlank) = true ∧
      wordsOf (dropOrdinals (outside 0 (letters.dropWhile isBlank))) =
        wordsOf (dropOrdinals (outside 0 letters)) := by
  induction letters with
  | nil => exact ⟨closed, rfl⟩
  | cons letter letters induction =>
      cases blank : isBlank letter with
      | false =>
          rw [List.dropWhile_cons_of_neg (by simp [blank])]
          exact ⟨closed, rfl⟩
      | true =>
          rw [closes_plain (isParenthesis_of_isBlank blank)] at closed
          rw [List.dropWhile_cons_of_pos blank, words_outside_cons blank]
          exact induction closed

theorem words_dropTrailing_blank (closed : closes 0 letters = true) :
    wordsOf (dropOrdinals (outside 0 (dropTrailing isBlank letters))) =
        wordsOf (dropOrdinals (outside 0 letters)) ∧
      closes 0 (dropTrailing isBlank letters) = true := by
  induction letters using List.reverseRecOn with
  | nil => exact ⟨rfl, closed⟩
  | append_singleton letters letter induction =>
      cases blank : isBlank letter with
      | false =>
          rw [dropTrailing_eq_self (by simp [blank])]
          exact ⟨rfl, closed⟩
      | true =>
          rw [closes_concat (isParenthesis_of_isBlank blank)] at closed
          have shorter :
              dropTrailing isBlank (letters ++ [letter]) = dropTrailing isBlank letters :=
            List.rdropWhile_concat_pos isBlank letters letter blank
          rw [shorter, words_outside_concat blank closed]
          exact induction closed

/-- The blanks around a list do not matter. -/
theorem edgeTokens_trim {value : String} (closed : closes 0 value.toList = true) :
    edgeTokens (trim value) = edgeTokens value := by
  obtain ⟨startClosed, start⟩ := words_dropWhile_blank closed
  obtain ⟨both, endClosed⟩ := words_dropTrailing_blank startClosed
  have trimmed : (trim value).toList = dropTrailing isBlank (value.toList.dropWhile isBlank) :=
    String.toList_ofList
  rw [edgeTokens_eq closed, edgeTokens_eq (trimmed ▸ endClosed), trimmed, both, start]

end Trim

/-- An end of an edge as a list writes it. -/
structure Mention where
  /-- The symbol at the end of the edge. -/
  symbol : String
  /-- The ordinal of the compiler's node. -/
  ordinal : String
  /-- What is said of the edge. -/
  remark : String

/-- A symbol as it can be written in edge lists and in headers. -/
@[mk_iff] structure IsSymbol (symbol : String) : Prop where
  /-- It is not empty. -/
  nonempty : symbol ≠ ""
  /-- It has no blanks. -/
  visible : ∀ letter ∈ symbol.toList, isBlank letter = false
  /-- It has neither parentheses nor slashes nor the separator of private keys. -/
  clear : ∀ letter ∈ symbol.toList, isParenthesis letter = false ∧ letter ≠ '/' ∧
    letter ≠ Key.separator

/-- A number as it stands after a symbol. -/
@[mk_iff] structure IsOrdinal (ordinal : String) : Prop where
  /-- It is not empty. -/
  nonempty : ordinal ≠ ""
  /-- It has digits only. -/
  digits : ∀ letter ∈ ordinal.toList, isDigit letter = true

theorem IsOrdinal.oneLine {ordinal : String} (isOrdinal : IsOrdinal ordinal) : OneLine ordinal := by
  apply oneLine_of_visible
  intro letter member
  rw [Bool.eq_false_iff]
  intro blank
  simpa [isDigit_of_isBlank blank] using isOrdinal.digits letter member

/-- What can be said of an edge: parentheses, balanced, and nothing but blanks outside of them. -/
@[mk_iff] structure IsRemark (remark : String) : Prop where
  /-- It is written on one line. -/
  oneLine : OneLine remark
  /-- Its parentheses are balanced. -/
  balanced : closes 0 remark.toList = true
  /-- Outside of them are blanks only. -/
  blank : ∀ letter ∈ outside 0 remark.toList, isBlank letter = true

instance (symbol : String) : Decidable (IsSymbol symbol) :=
  decidable_of_iff' _ (isSymbol_iff symbol)

instance (ordinal : String) : Decidable (IsOrdinal ordinal) :=
  decidable_of_iff' _ (isOrdinal_iff ordinal)

instance (remark : String) : Decidable (IsRemark remark) :=
  decidable_of_iff' _ (isRemark_iff remark)

namespace Mention

/-- An end of an edge as it is written. -/
def text (mention : Mention) : String :=
  mention.symbol ++ "/" ++ mention.ordinal ++ mention.remark

/-- What is asked of an end of an edge for it to be written. -/
@[mk_iff] structure Valid (mention : Mention) : Prop where
  /-- The symbol can be written. -/
  symbol : IsSymbol mention.symbol
  /-- So can the ordinal. -/
  ordinal : IsOrdinal mention.ordinal
  /-- So can the remark. -/
  remark : IsRemark mention.remark

instance (mention : Mention) : Decidable mention.Valid :=
  decidable_of_iff' _ mention.valid_iff

/-- What makes an end of an edge legible in a list: nothing in the symbol ends it early, the ordinal
is a number, and the parentheses of the remark are balanced, with nothing but blanks outside of
them. -/
@[mk_iff] structure Legible (mention : Mention) : Prop where
  /-- The symbol has no blanks. -/
  visible : ∀ letter ∈ mention.symbol.toList, isBlank letter = false
  /-- It has neither parentheses nor slashes. -/
  clear : ∀ letter ∈ mention.symbol.toList, isParenthesis letter = false ∧ letter ≠ '/'
  /-- The ordinal is a number. -/
  ordinal : IsOrdinal mention.ordinal
  /-- The parentheses of the remark are balanced. -/
  balanced : closes 0 mention.remark.toList = true
  /-- Outside of them are blanks only. -/
  blank : ∀ letter ∈ outside 0 mention.remark.toList, isBlank letter = true

instance (mention : Mention) : Decidable mention.Legible :=
  decidable_of_iff' _ mention.legible_iff

theorem Valid.legible {mention : Mention} (valid : mention.Valid) : mention.Legible where
  visible := valid.symbol.visible
  clear letter member :=
    have clear := valid.symbol.clear letter member
    ⟨clear.1, clear.2.1⟩
  ordinal := valid.ordinal
  balanced := valid.remark.balanced
  blank := valid.remark.blank

/-- Several ends, each after a space. -/
def texts (mentions : List Mention) : String :=
  String.join (mentions.map fun mention => " " ++ mention.text)

/-- The symbol and the ordinal, after a space. -/
def front (mention : Mention) : List Char :=
  ' ' :: (mention.symbol.toList ++ '/' :: mention.ordinal.toList)

theorem toList_texts_cons (mention : Mention) (mentions : List Mention) :
    (texts (mention :: mentions)).toList =
      mention.front ++ (mention.remark.toList ++ (texts mentions).toList) := by
  simp [texts, text, front, String.toList_join]

variable {mention : Mention} {mentions : List Mention}

theorem Legible.plain_front (legible : mention.Legible) :
    ∀ letter ∈ mention.front, isParenthesis letter = false := by
  intro letter member
  simp only [front, List.mem_cons, List.mem_append] at member
  rcases member with rfl | inSymbol | rfl | inOrdinal
  · decide
  · exact (legible.clear letter inSymbol).1
  · decide
  · have digit := legible.ordinal.digits letter inOrdinal
    rcases parenthesis_cases letter with rfl | rfl | plain
    · exact absurd digit (by decide)
    · exact absurd digit (by decide)
    · exact plain

theorem closes_texts (legible : ∀ mention ∈ mentions, mention.Legible) :
    closes 0 (texts mentions).toList = true := by
  induction mentions with
  | nil => rfl
  | cons mention mentions induction =>
      have first := legible mention List.mem_cons_self
      rw [toList_texts_cons, closes_append (closes_of_plain first.plain_front),
        closes_append first.balanced]
      exact induction fun other member => legible other (List.mem_cons_of_mem _ member)

theorem oneLine_texts (valid : ∀ mention ∈ mentions, mention.Valid) : OneLine (texts mentions) := by
  induction mentions with
  | nil => exact fun letter member => by simp [texts] at member
  | cons mention mentions induction =>
      have first := valid mention List.mem_cons_self
      have later := induction fun other member => valid other (List.mem_cons_of_mem _ member)
      have written : OneLine mention.text :=
        (((oneLine_of_visible first.symbol.visible).append (by decide)).append
          first.ordinal.oneLine).append first.remark.oneLine
      rw [texts, List.map_cons, String.join_cons]
      exact (OneLine.append (by decide) written).append later

/-- What stands outside of the annotations begins with a space, if there is anything. -/
theorem head_outside_texts (legible : ∀ mention ∈ mentions, mention.Legible) :
    ∀ letter ∈ (outside 0 (texts mentions).toList).head?, isBlank letter = true := by
  cases mentions with
  | nil => simp [texts, outside]
  | cons mention mentions =>
      have first := legible mention List.mem_cons_self
      rw [toList_texts_cons, outside_append (closes_of_plain first.plain_front),
        outside_of_plain first.plain_front]
      rintro letter ⟨⟩
      decide

/-- A symbol is cut out of its list; an empty one leaves nothing. -/
theorem Legible.words_append (legible : mention.Legible) {blanks rest : List Char}
    (blank : ∀ letter ∈ blanks, isBlank letter = true)
    (ended : ∀ letter ∈ rest.head?, isBlank letter = true) :
    wordsOf (dropOrdinals (mention.front ++ (blanks ++ rest))) =
      [mention.symbol.toList].filter (fun word => !word.isEmpty) ++
        wordsOf (dropOrdinals rest) := by
  have noSlash : '/' ∉ ' ' :: mention.symbol.toList := by
    rw [List.mem_cons, not_or]
    exact ⟨by decide, fun member => (legible.clear '/' member).2 rfl⟩
  have noSlashBlank : '/' ∉ blanks := fun member => ne_slash_of_isBlank (blank '/' member) rfl
  have ordinalNonempty : mention.ordinal.toList ≠ [] := by
    simpa using legible.ordinal.nonempty
  calc wordsOf (dropOrdinals (mention.front ++ (blanks ++ rest)))
    _ = wordsOf (dropOrdinals (' ' :: mention.symbol.toList ++
          '/' :: (mention.ordinal.toList ++ (blanks ++ rest)))) := by simp [front]
    _ = wordsOf (' ' :: mention.symbol.toList ++ (blanks ++ dropOrdinals rest)) := by
        rw [dropOrdinals_append _ noSlash,
          dropOrdinals_ordinal ordinalNonempty legible.ordinal.digits fun letter first =>
            isDigit_of_isBlank (head_append_blank blank ended letter first),
          dropOrdinals_append _ noSlashBlank]
    _ = [mention.symbol.toList].filter (fun word => !word.isEmpty) ++
          wordsOf (blanks ++ dropOrdinals rest) := by
        rw [List.cons_append, wordsOf_cons_blank (by decide),
          wordsOf_append_word legible.visible
            (head_append_blank blank (head_dropOrdinals ended))]
    _ = [mention.symbol.toList].filter (fun word => !word.isEmpty) ++
          wordsOf (dropOrdinals rest) := by
        rw [wordsOf_append_blank blank]

/-- The symbols of a legible list of edges are read back, but for empty ones. -/
theorem edgeTokens_texts (legible : ∀ mention ∈ mentions, mention.Legible) :
    edgeTokens (texts mentions) = (mentions.map symbol).filter (· ≠ "") := by
  rw [edgeTokens_eq (closes_texts legible)]
  induction mentions with
  | nil => simp [texts, outside, dropOrdinals, wordsOf]
  | cons mention mentions induction =>
      have first := legible mention List.mem_cons_self
      have others : ∀ other ∈ mentions, other.Legible := fun other member =>
        legible other (List.mem_cons_of_mem _ member)
      rw [toList_texts_cons, outside_append (closes_of_plain first.plain_front),
        outside_of_plain first.plain_front, outside_append first.balanced,
        first.words_append first.blank (head_outside_texts others), List.map_append,
        induction others, List.map_cons]
      by_cases empty : mention.symbol = ""
      · simp [empty]
      · simp [empty]

theorem filter_symbols (nonempty : ∀ mention ∈ mentions, mention.symbol ≠ "") :
    (mentions.map Mention.symbol).filter (· ≠ "") = mentions.map Mention.symbol := by
  refine List.filter_eq_self.mpr fun symbol listed => ?_
  obtain ⟨mention, member, rfl⟩ := List.mem_map.mp listed
  exact decide_eq_true (nonempty mention member)

end Mention

end CallGraph.Dump
