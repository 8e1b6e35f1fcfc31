import CallGraph.Proofs.Reading.Sessions
import Mathlib.Tactic.MkIffOfInductiveProp
import Mathlib.Tactic.Tauto

/-!
# The life of a private record

One private key is followed through the lines of its unit.  Its record is gone as soon as the symbol
turns out to be public or made up, or when its block is closed without an edge.  So the key has a
record when the unit ends if the one that it has survives all lines to come, or if one of these
lines opens it anew and the new record survives the rest: `Moves.contains_iff_destined`.
-/

namespace CallGraph

theorem Record.hasEdges_addEdges (record : Record) (field : EdgeField) (tokens : List String) :
    (record.addEdges field tokens).hasEdges = true ↔ record.hasEdges = true ∨ tokens ≠ [] := by
  simp only [hasEdges_iff, edges_addEdges]
  constructor
  · rintro ⟨own, key, member⟩
    split at member
    · rcases mem_union.mp member with old | new
      · exact .inl ⟨field, key, old⟩
      · exact .inr (List.ne_nil_of_mem new)
    · exact .inl ⟨own, key, member⟩
  · rintro (⟨own, key, member⟩ | nonempty)
    · refine ⟨own, key, ?_⟩
      split
      · next same => exact mem_union.mpr (.inl (same ▸ member))
      · exact member
    · obtain ⟨token, listed⟩ := List.exists_mem_of_ne_nil _ nonempty
      exact ⟨field, token, by simpa using mem_union.mpr (.inr listed)⟩

namespace Dump

/-! ## What the lines of a unit say of a symbol -/

/-- What the lines of a unit say. -/
def itemsOf (lines : List String) : List Line :=
  lines.filterMap fun line => (readLine line).toOption

/-- The visibility that a line gives. -/
def Line.visibility? : Line → Option String
  | .field .visibility value => some value
  | _ => none

/-- Whether the reader is in a block of a symbol after a line, if `inside` tells it before. -/
def within (symbol : String) (inside : Bool) : Line → Bool
  | .header header => header.symbol == symbol
  | .field _ _ | .other => inside

/-- The visibilities that the blocks of a symbol give, where `inside` tells whether the lines begin
in one. -/
def visibilities (symbol : String) : Bool → List Line → List String
  | _, [] => []
  | inside, item :: items =>
      (if inside then item.visibility?.toList else []) ++
        visibilities symbol (within symbol inside item) items

/-- The edges that are listed before the first block of another symbol. -/
def openTokens (symbol : String) : List Line → List String
  | [] => []
  | .header header :: items => if header.symbol = symbol then openTokens symbol items else []
  | .field (.edges _) value :: items => edgeTokens value ++ openTokens symbol items
  | .field .type _ :: items | .field .visibility _ :: items | .other :: items =>
      openTokens symbol items

/-- The private record of a symbol survives the rest of a unit, where `inside` tells whether the
lines begin in its block. -/
@[mk_iff]
structure Survives (symbol : String) (record : Record) (inside : Bool) (items : List Line) :
    Prop where
  /-- The record has an edge by the time its block is closed. -/
  linked : record.hasEdges = true ∨ inside = true ∧ openTokens symbol items ≠ []
  /-- No block of the symbol says that it is public. -/
  hidden : ∀ value ∈ visibilities symbol inside items, (Flags.scan value).exported = false
  /-- The first visibility of all does not say that the compiler made the symbol up. -/
  genuine : record.visibility = none → ∀ value ∈ (visibilities symbol inside items).head?,
    (Flags.scan value).artificial = false

/-- A block of the symbol is opened whose record survives the rest of the unit. -/
def Revives (symbol : String) (items : List Line) : Prop :=
  ∃ before header after, items = before ++ .header header :: after ∧ header.symbol = symbol ∧
    Survives symbol {} true after

section Fields

variable {symbol : String} {record : Record} {inside : Bool} {items : List Line} {header : Header}

theorem itemsOf_eq {lines : List String} (read : lines.map readLine = items.map .ok) :
    itemsOf lines = items := by
  have mapped : itemsOf lines = (lines.map readLine).filterMap Except.toOption := by
    rw [List.filterMap_map]
    rfl
  rw [mapped, read, List.filterMap_map]
  exact List.filterMap_some

theorem visibilities_append (before after : List Line) (same : header.symbol = symbol)
    (inside : Bool) :
    visibilities symbol inside (before ++ .header header :: after) =
      visibilities symbol inside before ++ visibilities symbol true after := by
  induction before generalizing inside with
  | nil => simp [visibilities, within, Line.visibility?, same]
  | cons item before induction => simp [visibilities, induction]

theorem revives_cons {item : Line} :
    Revives symbol (item :: items) ↔
      (∃ header, item = .header header ∧ header.symbol = symbol ∧ Survives symbol {} true items) ∨
        Revives symbol items := by
  constructor
  · rintro ⟨before, header, after, split, same, survives⟩
    rcases List.cons_eq_append_iff.mp split with ⟨-, rest⟩ | ⟨earlier, -, rfl⟩
    · cases rest
      exact .inl ⟨header, rfl, same, survives⟩
    · exact .inr ⟨earlier, header, after, rfl, same, survives⟩
  · rintro (⟨header, rfl, same, survives⟩ | ⟨before, header, after, rfl, same, survives⟩)
    · exact ⟨[], header, items, rfl, same, survives⟩
    · exact ⟨item :: before, header, after, rfl, same, survives⟩

theorem revives_cons_of_ne {item : Line}
    (apart : ∀ header, item = .header header → header.symbol ≠ symbol) :
    Revives symbol (item :: items) ↔ Revives symbol items := by
  rw [revives_cons]
  constructor
  · rintro (⟨header, isHeader, same, -⟩ | later)
    · exact absurd same (apart header isHeader)
    · exact later
  · exact .inr

theorem survives_nil : Survives symbol record inside [] ↔ record.hasEdges = true := by
  simp [survives_iff, visibilities, openTokens]

theorem Survives.hasEdges (survives : Survives symbol record false items) :
    record.hasEdges = true :=
  survives.linked.resolve_right fun standing => Bool.false_ne_true standing.1

/-- Only edges and visibility matter. -/
theorem survives_congr {other : Record} (edges : other.hasEdges = record.hasEdges)
    (visibility : other.visibility = record.visibility) :
    Survives symbol other inside items ↔ Survives symbol record inside items := by
  rw [survives_iff, survives_iff, edges, visibility]

/-- Outside the blocks of a symbol nothing happens to its record. -/
theorem survives_cons_of_ne {item : Line}
    (apart : ∀ header, item = .header header → header.symbol ≠ symbol) :
    Survives symbol record false (item :: items) ↔ Survives symbol record false items := by
  have outside : within symbol false item = false := by
    cases item with
    | header header => exact beq_false_of_ne (apart header rfl)
    | field | other => rfl
  simp [survives_iff, visibilities, outside]

theorem survives_other :
    Survives symbol record inside (.other :: items) ↔ Survives symbol record inside items := by
  simp [survives_iff, visibilities, within, Line.visibility?, openTokens]

/-- A block of another symbol closes the block. -/
theorem survives_leave (apart : header.symbol ≠ symbol) :
    Survives symbol record true (.header header :: items) ↔
      Survives symbol record false items := by
  have outside : within symbol true (.header header) = false := beq_false_of_ne apart
  simp [survives_iff, visibilities, Line.visibility?, openTokens, apart, outside]

/-- A block of the same symbol goes on with the block. -/
theorem survives_reopen (same : header.symbol = symbol) :
    Survives symbol record inside (.header header :: items) ↔
      (record.hasEdges = true ∨ inside = true) ∧ Survives symbol record true items := by
  have stays : within symbol inside (.header header) = true := beq_iff_eq.mpr same
  simp only [survives_iff, visibilities, Line.visibility?, openTokens, same, stays, if_true,
    true_and, Option.toList_none, ite_self, List.nil_append]
  tauto

theorem survives_type {value : String} :
    Survives symbol record true (.field .type value :: items) ↔
      Survives symbol record true items := by
  simp [survives_iff, visibilities, within, Line.visibility?, openTokens]

theorem survives_visibility {value : String} :
    Survives symbol record true (.field .visibility value :: items) ↔
      (Flags.scan value).exported = false ∧
        (record.visibility = none → (Flags.scan value).artificial = false) ∧
        Survives symbol { record with visibility := some .fileLocal } true items := by
  have kept : ({ record with visibility := some .fileLocal } : Record).hasEdges =
      record.hasEdges := rfl
  simp only [survives_iff, visibilities, within, Line.visibility?, openTokens, kept, if_true,
    Option.toList_some, List.singleton_append, List.forall_mem_cons, List.head?_cons,
    Option.mem_def, Option.some.injEq, forall_eq', reduceCtorEq, false_imp_iff, and_true]
  tauto

theorem survives_edges {field : EdgeField} {value : String} :
    Survives symbol record true (.field (.edges field) value :: items) ↔
      Survives symbol (record.addEdges field (edgeTokens value)) true items := by
  have seen : (record.addEdges field (edgeTokens value)).visibility = record.visibility :=
    record.visibility_withEdges field _
  have listed : edgeTokens value ++ openTokens symbol items ≠ [] ↔
      edgeTokens value ≠ [] ∨ openTokens symbol items ≠ [] := by
    rw [ne_eq, List.append_eq_nil_iff, not_and_or]
  simp only [survives_iff, visibilities, within, Line.visibility?, openTokens,
    record.hasEdges_addEdges, seen, listed, Option.toList_none, ite_self, List.nil_append,
    true_and, or_assoc]

/-- What survives as an empty record survives as any other. -/
theorem Survives.of_empty (survives : Survives symbol {} true items) (record : Record) :
    Survives symbol record true items where
  linked := survives.linked.imp_left fun linked => absurd linked (by decide)
  hidden := survives.hidden
  genuine _ := survives.genuine rfl

end Fields

theorem Flags.eq_scan_of_read {value : String} {flags : Flags}
    (read : Flags.read value = .ok flags) : flags = Flags.scan value := by
  unfold Flags.read at read
  dsimp only at read
  split at read
  · cases read
  · split at read
    · cases read
    · split at read
      · cases read
      · cases read
        rfl

/-! ## One private key through a unit -/

variable {origin : Origin} {table after : Table} {current final : Key} {symbol : String}
  {item : Line} {items : List Line}

/-- A line leaves a private key alone that it does not open and whose block is not current. -/
theorem Move.get?_apart (move : Move origin table current item after final) {key : Key}
    (marked : Key.isPrivate key = true) (apart : key ≠ current)
    (unopened : ∀ header, item = .header header → key ≠ Key.inOrigin header.symbol origin) :
    after.get? key = table.get? key ∧ key ≠ final := by
  cases move with
  | other => exact ⟨rfl, apart⟩
  | stray => exact ⟨rfl, apart⟩
  | header header known =>
      have different := unopened header rfl
      rw [get?_opened_of_ne different, get?_closedTable, if_neg fun closes => apart closes.1]
      exact ⟨rfl, different⟩
  | exported value flags after present named isExported merged =>
      have notTarget : key ≠ Key.bare current := by
        rintro rfl
        rw [Key.isPrivate_bare] at marked
        cases marked
      rw [Table.get?_merge_of_ne merged notTarget apart, Table.get?_modify, if_neg apart]
      exact ⟨rfl, notTarget⟩
  | artificial => exact ⟨by rw [Table.get?_erase, if_neg apart], apart⟩
  | type => exact ⟨by rw [Table.get?_modify, if_neg apart], apart⟩
  | fileLocal => exact ⟨by rw [Table.get?_modify, if_neg apart], apart⟩
  | edges => exact ⟨by rw [Table.get?_modify, if_neg apart], apart⟩

/-- The header of another symbol closes the block of a private key, which keeps its record if that
has an edge. -/
theorem get?_leave {header : Header} (unmarked : Key.isPrivate header.symbol = false)
    (apart : Key.inOrigin symbol origin ≠ Key.inOrigin header.symbol origin)
    (change : Record → Record) :
    (((closedTable table (Key.inOrigin symbol origin) header.symbol
        (Key.inOrigin header.symbol origin)).ensure (Key.inOrigin header.symbol origin)).modify
          (Key.inOrigin header.symbol origin) change).get? (Key.inOrigin symbol origin) =
      (table.get? (Key.inOrigin symbol origin)).filter Record.hasEdges := by
  rw [get?_opened_of_ne apart, get?_closedTable, if_pos]
  exact ⟨rfl, Key.inOrigin_ne_empty symbol origin, (Key.ne_inOrigin unmarked symbol origin).symm,
    apart⟩

/-- The private key of a symbol will have a record when the unit ends: the one that it has survives,
or a block to come opens one that does. -/
def Destined (symbol : String) (origin : Origin) (table : Table) (current : Key)
    (items : List Line) : Prop :=
  (∃ record, table.get? (Key.inOrigin symbol origin) = some record ∧
      Survives symbol record (current == Key.inOrigin symbol origin) items) ∨
    Revives symbol items

/-- The private record of a symbol has an edge, unless its block is still open. -/
def Settled (symbol : String) (origin : Origin) (table : Table) (current : Key) : Prop :=
  ∀ record, table.get? (Key.inOrigin symbol origin) = some record →
    current ≠ Key.inOrigin symbol origin → record.hasEdges = true

/-- A header of the symbol opens its record anew or goes on with it. -/
theorem Move.destined_opened {header : Header}
    (move : Move origin table current (.header header) after final)
    (settled : Settled header.symbol origin table current) :
    Destined header.symbol origin table current (.header header :: items) ↔
      Destined header.symbol origin after final items := by
  cases move with
  | header _ known =>
      have closed : (closedTable table current header.symbol
          (Key.inOrigin header.symbol origin)).get? (Key.inOrigin header.symbol origin) =
            table.get? (Key.inOrigin header.symbol origin) := by
        rw [get?_closedTable, if_neg]
        rintro ⟨isCurrent, -, -, different⟩
        exact different isCurrent.symm
      have opened : ∀ record, Survives header.symbol (openedRecord header.name origin record) true
          items ↔ Survives header.symbol record true items :=
        fun record => survives_congr rfl rfl
      unfold Destined
      rw [Table.get?_modify, if_pos rfl, Table.get?_ensure, if_pos rfl, closed, revives_cons]
      simp only [Option.map_some, Option.some.injEq, exists_eq_left', beq_self_eq_true, opened,
        survives_reopen, Line.header.injEq, true_and]
      cases found : table.get? (Key.inOrigin header.symbol origin) with
      | none => simp
      | some record =>
          simp only [Option.some.injEq, exists_eq_left', Option.getD_some]
          constructor
          · rintro (⟨-, survives⟩ | survives | revives)
            · exact .inl survives
            · exact .inl (survives.of_empty record)
            · exact .inr revives
          · rintro (survives | revives)
            · refine .inl ⟨?_, survives⟩
              by_cases isCurrent : current = Key.inOrigin header.symbol origin
              · exact .inr (by simp [isCurrent])
              · exact .inl (settled record found isCurrent)
            · exact .inr (.inr revives)

/-- A line of the symbol's own block, or the header that closes it. -/
theorem Move.destined_inside
    (move : Move origin table (Key.inOrigin symbol origin) item after final)
    (unmarked : Key.isPrivate symbol = false) (sayable : item.Sayable)
    (apart : ∀ header, item = .header header → header.symbol ≠ symbol) :
    Destined symbol origin table (Key.inOrigin symbol origin) (item :: items) ↔
      Destined symbol origin after final items := by
  refine or_congr ?_ (revives_cons_of_ne apart)
  rw [beq_self_eq_true]
  cases move with
  | other => simp only [survives_other, beq_self_eq_true]
  | header header known =>
      have elsewhere := sayable.inOrigin_ne unmarked (apart header rfl) origin
      rw [get?_leave sayable.unmarked elsewhere, beq_false_of_ne elsewhere.symm]
      simp only [survives_leave (apart header rfl), Option.filter_eq_some_iff, and_assoc]
      constructor
      · rintro ⟨record, found, survives⟩
        exact ⟨record, found, survives.hasEdges, survives⟩
      · rintro ⟨record, found, -, survives⟩
        exact ⟨record, found, survives⟩
  | stray label value absent =>
      rw [Bool.eq_false_iff, ne_eq, Table.not_contains_iff] at absent
      simp [absent]
  | type value kind =>
      simp only [Table.get?_modify, if_true, Option.map_eq_some_iff, exists_exists_and_eq_and,
        beq_self_eq_true, survives_type]
      refine exists_congr fun record => and_congr_right fun _ => ?_
      exact Iff.symm (@survives_congr symbol record true items { record with kind } rfl rfl)
  | exported value flags after present named isExported merged =>
      have different : Key.bare (Key.inOrigin symbol origin) ≠ Key.inOrigin symbol origin :=
        Key.ne_inOrigin (Key.isPrivate_bare _) _ _
      obtain ⟨incoming, -, records⟩ := Table.get?_merge merged different
      rw [records, if_neg different.symm, if_pos rfl]
      constructor
      · rintro ⟨record, -, survives⟩
        have hidden := (survives_visibility.mp survives).1
        rw [← Flags.eq_scan_of_read named, isExported] at hidden
        cases hidden
      · rintro ⟨record, found, -⟩
        cases found
  | artificial value flags present named hidden isArtificial unseen =>
      rw [Table.get?_erase, if_pos rfl]
      constructor
      · rintro ⟨record, found, survives⟩
        rw [found] at unseen
        have genuine := (survives_visibility.mp survives).2.1 unseen
        rw [← Flags.eq_scan_of_read named, isArtificial] at genuine
        cases genuine
      · rintro ⟨record, found, -⟩
        cases found
  | fileLocal value flags present named hidden genuine notExported =>
      rw [Flags.eq_scan_of_read named] at hidden genuine
      simp only [Table.get?_modify, if_true, Option.map_eq_some_iff, exists_exists_and_eq_and,
        beq_self_eq_true, survives_visibility, hidden, true_and]
      refine exists_congr fun record => and_congr_right fun found => ?_
      refine and_iff_right fun unseen => ?_
      rw [found] at genuine
      simpa using fun isArtificial => genuine isArtificial unseen
  | edges field value =>
      simp only [Table.get?_modify, if_true, Option.map_eq_some_iff, exists_exists_and_eq_and,
        beq_self_eq_true, survives_edges]

/-- Whether the key will have a record is the same before and after each line. -/
theorem Move.destined_iff (move : Move origin table current item after final)
    (unmarked : Key.isPrivate symbol = false) (sayable : item.Sayable)
    (settled : Settled symbol origin table current) :
    Destined symbol origin table current (item :: items) ↔
      Destined symbol origin after final items := by
  by_cases opens : ∃ header, item = .header header ∧ header.symbol = symbol
  · obtain ⟨header, rfl, rfl⟩ := opens
    exact move.destined_opened settled
  · have apart : ∀ header, item = .header header → header.symbol ≠ symbol :=
      fun header isHeader same => opens ⟨header, isHeader, same⟩
    by_cases isCurrent : current = Key.inOrigin symbol origin
    · subst isCurrent
      exact move.destined_inside unmarked sayable apart
    · have unopened : ∀ header, item = .header header →
          Key.inOrigin symbol origin ≠ Key.inOrigin header.symbol origin := by
        rintro header rfl
        exact sayable.inOrigin_ne unmarked (apart header rfl) origin
      obtain ⟨same, elsewhere⟩ :=
        move.get?_apart (Key.isPrivate_inOrigin symbol origin) (Ne.symm isCurrent) unopened
      unfold Destined
      rw [same, beq_false_of_ne isCurrent, beq_false_of_ne elsewhere.symm,
        revives_cons_of_ne apart]
      simp only [survives_cons_of_ne apart]

theorem Move.settled (move : Move origin table current item after final) (sayable : item.Sayable)
    (settled : Settled symbol origin table current) : Settled symbol origin after final := by
  intro record found closed
  by_cases isCurrent : current = Key.inOrigin symbol origin
  · subst isCurrent
    cases move with
    | header header known =>
        rw [get?_leave sayable.unmarked closed.symm] at found
        exact (Option.filter_eq_some_iff.mp found).2
    | exported value flags after present named isExported merged =>
        -- The record has left its private key.
        obtain ⟨incoming, -, records⟩ := Table.get?_merge merged closed
        rw [records, if_neg closed.symm, if_pos rfl] at found
        cases found
    | other => exact absurd rfl closed
    | stray => exact absurd rfl closed
    | type => exact absurd rfl closed
    | artificial => exact absurd rfl closed
    | fileLocal => exact absurd rfl closed
    | edges => exact absurd rfl closed
  · have unopened : ∀ header, item = .header header →
        Key.inOrigin symbol origin ≠ Key.inOrigin header.symbol origin := by
      rintro header rfl
      cases move
      exact closed.symm
    have same := (move.get?_apart (Key.isPrivate_inOrigin symbol origin) (Ne.symm isCurrent)
      unopened).1
    exact settled record (same ▸ found) isCurrent

/-- When a unit has been read, the private key of a symbol has a record if it was bound to. -/
theorem Moves.contains_iff_destined (moves : Moves origin items table current after final)
    (unmarked : Key.isPrivate symbol = false) (sayable : ∀ item ∈ items, item.Sayable)
    (settled : Settled symbol origin table current) :
    (finishedTable after final).contains (Key.inOrigin symbol origin) = true ↔
      Destined symbol origin table current items := by
  induction moves with
  | nil table current =>
      have unopened : ¬ Revives symbol [] := by
        rintro ⟨before, header, rest, split, -⟩
        simp at split
      simp only [Destined, survives_nil, unopened, or_false, Table.contains_iff]
      refine exists_congr fun record => ?_
      rw [get?_finishedTable]
      split
      · rw [Option.filter_eq_some_iff]
      · next notCurrent =>
          refine ⟨fun found => ⟨found, settled record found fun isCurrent => ?_⟩, And.left⟩
          refine notCurrent ⟨isCurrent.symm, ?_⟩
          rw [isCurrent]
          exact Key.inOrigin_ne_empty symbol origin
  | cons move later induction =>
      obtain ⟨first, rest⟩ := List.forall_mem_cons.mp sayable
      rw [induction rest (move.settled first settled), move.destined_iff unmarked first settled]

end Dump

end CallGraph
