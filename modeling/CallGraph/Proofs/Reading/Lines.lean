import CallGraph.Dump.Annotation
import CallGraph.Dump.Line
import CallGraph.Proofs.Lookup

/-!
# What a line can say

A header names its symbol and shows a name, and neither holds the separator of private keys.  The
tokens of an edge list are made of characters of the list, so a list without the separator has no
token with it.
-/

namespace CallGraph.Dump

open Text

/-! ## Headers -/

theorem nameAndAddress?_ne_nil {name letters read digits : List Char}
    (found : nameAndAddress? name letters = some (read, digits)) : read ≠ [] := by
  induction letters generalizing name with
  | nil => cases found
  | cons letter rest induction =>
      rw [nameAndAddress?] at found
      split at found
      · next ended =>
          cases found
          intro empty
          rw [List.reverse_eq_nil_iff] at empty
          simp [empty] at ended
      · split at found
        · cases found
        · exact induction found

theorem headerFrom?_ne_empty {symbol letters : List Char} {header : Header}
    (found : headerFrom? symbol letters = some header) :
    header.symbol ≠ "" ∧ header.name ≠ "" := by
  induction letters generalizing symbol with
  | nil => cases found
  | cons letter rest induction =>
      rw [headerFrom?] at found
      split at found
      · next name digits ended =>
          cases found
          split at ended
          · cases ended
          · next nonempty =>
              obtain ⟨after, -, named⟩ := Option.bind_eq_some_iff.mp ended
              have name_ne := nameAndAddress?_ne_nil named
              constructor
              · intro empty
                have letters_eq := congrArg String.toList empty
                simp at letters_eq
                simp [letters_eq] at nonempty
              · intro empty
                have letters_eq := congrArg String.toList empty
                simp at letters_eq
                exact name_ne letters_eq
      · split at found
        · cases found
        · exact induction found

/-- A header that is accepted has a symbol and a name, both without the separator. -/
theorem header_of_readLine {line : String} {header : Header}
    (read : readLine line = .ok (.header header)) :
    header.symbol ≠ "" ∧ header.name ≠ "" ∧ Key.isPrivate header.symbol = false ∧
      Key.isPrivate header.name = false := by
  unfold readLine at read
  split at read
  · split at read <;> cases read
  · split at read
    · cases read
    · next found =>
        split at read
        · cases read
        · next unreserved =>
            cases read
            obtain ⟨symbol_ne, name_ne⟩ := headerFrom?_ne_empty found
            rw [Bool.or_eq_true, not_or] at unreserved
            exact ⟨symbol_ne, name_ne, by simpa using unreserved.1, by simpa using unreserved.2⟩

/-- Some line says it. -/
def Line.Sayable (item : Line) : Prop := ∃ line, readLine line = .ok item

theorem Line.Sayable.unmarked {header : Header} (sayable : (Line.header header).Sayable) :
    Key.isPrivate header.symbol = false := by
  obtain ⟨line, read⟩ := sayable
  exact (header_of_readLine read).2.2.1

theorem Line.Sayable.inOrigin_ne {header : Header} (sayable : (Line.header header).Sayable)
    {symbol : String} (unmarked : Key.isPrivate symbol = false) (apart : header.symbol ≠ symbol)
    (origin : Origin) : Key.inOrigin symbol origin ≠ Key.inOrigin header.symbol origin := by
  intro same
  exact apart (Key.inOrigin_injective unmarked sayable.unmarked same).1.symm

theorem sayable_of_reads {lines : List String} {items : List Line}
    (reads : lines.map readLine = items.map .ok) : ∀ item ∈ items, item.Sayable := by
  intro item member
  have said : (.ok item : Except LineError Line) ∈ lines.map readLine := by
    rw [reads]
    exact List.mem_map.mpr ⟨item, member, rfl⟩
  obtain ⟨line, -, read⟩ := List.mem_map.mp said
  exact ⟨line, read⟩

/-! ## Edge lists -/

theorem mem_of_afterClosing? {letters rest : List Char}
    (closed : afterClosing? letters = some rest) {letter : Char} (member : letter ∈ rest) :
    letter ∈ letters := by
  induction letters with
  | nil => cases closed
  | cons head letters induction =>
      rw [afterClosing?] at closed
      split at closed
      · cases closed
        exact List.mem_cons_of_mem _ member
      · split at closed
        · cases closed
        · exact List.mem_cons_of_mem _ (induction closed)

/-- Taking annotations away brings in nothing but spaces. -/
theorem mem_of_blankInnermost {letters : List Char} {letter : Char}
    (member : letter ∈ blankInnermost letters) : letter ∈ letters ∨ letter = ' ' := by
  fun_induction blankInnermost letters with
  | case1 => exact .inl member
  | case2 head rest _ after closed induction =>
      rcases List.mem_cons.mp member with rfl | later
      · exact .inr rfl
      · exact (induction later).imp_left fun inside =>
          List.mem_cons_of_mem _ (mem_of_afterClosing? closed inside)
  | case3 head rest _ _ induction =>
      rcases List.mem_cons.mp member with rfl | later
      · exact .inl List.mem_cons_self
      · exact (induction later).imp_left (List.mem_cons_of_mem _)
  | case4 head rest _ induction =>
      rcases List.mem_cons.mp member with rfl | later
      · exact .inl List.mem_cons_self
      · exact (induction later).imp_left (List.mem_cons_of_mem _)

theorem mem_of_blankAnnotations {letters : List Char} {letter : Char}
    (member : letter ∈ blankAnnotations letters) : letter ∈ letters ∨ letter = ' ' := by
  fun_induction blankAnnotations letters with
  | case1 => exact .inl member
  | case2 letters _ induction =>
      rcases induction member with inside | space
      · exact mem_of_blankInnermost inside
      · exact .inr space

theorem mem_of_dropOrdinals {letters : List Char} {letter : Char}
    (member : letter ∈ dropOrdinals letters) : letter ∈ letters := by
  fun_induction dropOrdinals letters with
  | case1 => exact member
  | case2 head rest _ induction =>
      exact List.mem_cons_of_mem _ ((List.dropWhile_sublist isDigit).subset (induction member))
  | case3 head rest _ induction =>
      rcases List.mem_cons.mp member with rfl | later
      · exact List.mem_cons_self
      · exact List.mem_cons_of_mem _ (induction later)

theorem mem_of_splitOnPPrepend {separates : Char → Bool} {letters pending word : List Char}
    (piece : word ∈ letters.splitOnPPrepend separates pending) {letter : Char}
    (member : letter ∈ word) : letter ∈ letters ∨ letter ∈ pending := by
  induction letters generalizing pending with
  | nil =>
      rw [List.splitOnPPrepend_nil, List.mem_singleton] at piece
      subst piece
      exact .inr (List.mem_reverse.mp member)
  | cons head letters induction =>
      rw [List.splitOnPPrepend_cons_eq_if] at piece
      split at piece
      · rcases List.mem_cons.mp piece with rfl | later
        · exact .inr (List.mem_reverse.mp member)
        · rcases induction later with inside | impossible
          · exact .inl (List.mem_cons_of_mem _ inside)
          · cases impossible
      · rcases induction piece with inside | old
        · exact .inl (List.mem_cons_of_mem _ inside)
        · rcases List.mem_cons.mp old with rfl | older
          · exact .inl List.mem_cons_self
          · exact .inr older

/-- A list of edges without the separator names no private key. -/
theorem isPrivate_of_mem_edgeTokens {value token : String}
    (plain : Key.separator ∉ value.toList) (member : token ∈ edgeTokens value) :
    Key.isPrivate token = false := by
  obtain ⟨word, piece, rfl⟩ := List.mem_map.mp member
  have split := (List.mem_filter.mp piece).1
  rw [Key.isPrivate, Bool.eq_false_iff, ne_eq, List.contains_iff_mem]
  intro separator
  rw [String.toList_ofList] at separator
  rcases mem_of_splitOnPPrepend split separator with inside | impossible
  · rcases mem_of_blankAnnotations (mem_of_dropOrdinals inside) with present | space
    · exact plain present
    · exact absurd space (by decide)
  · cases impossible

end CallGraph.Dump
