import CallGraph.Proofs.Reading.Declarations
import CallGraph.Proofs.Reading.Rendering

/-!
# Decoding

Reading a dump undoes its writing.  Of a unit that is read into an empty table, the table holds the
record of every block that is not artificial and lists an edge, as the compiler had it, and
remembers the unit for the public symbols that it defines without edges.
-/

namespace CallGraph.Dump

/-! ## One unit in an empty table -/

/-- What a table holds after blocks of one unit were read into an empty one. -/
structure Holds (origin : Origin) (done : List Block) (table : Table) : Prop where
  /-- The records are those of the blocks that list an edge. -/
  records : ∀ key record, table.get? key = some record ↔
    ∃ block ∈ done, block.isArtificial = false ∧ (block.extend origin none).hasEdges = true ∧
      block.key origin = key ∧ block.extend origin none = record
  /-- The unit is remembered for the public symbols that it defines without edges. -/
  detached : ∀ key elsewhere, elsewhere ∈ (table.detached.get? key).getD [] ↔
    elsewhere = origin ∧ ∃ block ∈ done, block.isExported = true ∧ block.isExternal = false ∧
      (block.extend origin none).hasEdges = false ∧ block.symbol = key

namespace Holds

variable {origin : Origin} {done : List Block} {block : Block} {table after : Table}
  {current : Key} {rest : List (Origin × Block)}

theorem empty (origin : Origin) : Holds origin [] ∅ where
  records key record := by
    constructor
    · intro found
      cases found
    · rintro ⟨block, listed, -⟩
      cases listed
  detached key elsewhere := by
    constructor
    · intro known
      cases known
    · rintro ⟨-, block, listed, -⟩
      cases listed

/-- Only look-up matters. -/
theorem congr (holds : Holds origin done table) (records : ∀ key, after.get? key = table.get? key)
    (detached : after.detached = table.detached) : Holds origin done after where
  records key record := by rw [records, holds.records]
  detached key elsewhere := by rw [detached, holds.detached]

theorem exists_mem_concat {holds : Block → Prop} :
    (∃ other ∈ done ++ [block], holds other) ↔ (∃ other ∈ done, holds other) ∨ holds block := by
  simp [or_and_right, exists_or]

/-- An artificial block adds nothing. -/
theorem artificial (holds : Holds origin done table) (sound : block.Sound)
    (isArtificial : block.isArtificial = true) : Holds origin (done ++ [block]) table where
  records key record := by
    rw [holds.records, exists_mem_concat, or_iff_left]
    rintro ⟨genuine, -⟩
    rw [isArtificial] at genuine
    cases genuine
  detached key elsewhere := by
    rw [holds.detached, exists_mem_concat, or_iff_left]
    rintro ⟨exported, -⟩
    rw [sound.isArtificial_eq exported] at isArtificial
    cases isArtificial

/-- No earlier block has the key or the symbol of the next one. -/
theorem fresh (orderly : Orderly (done.map (origin, ·) ++ (origin, block) :: rest)) {other : Block}
    (listed : other ∈ done) :
    other.key origin ≠ block.key origin ∧ other.symbol ≠ block.symbol := by
  have member : (origin, other) ∈ done.map (origin, ·) := List.mem_map.mpr ⟨other, listed, rfl⟩
  have different := orderly.not_mem member
  refine ⟨fun same => different ?_, different⟩
  obtain ⟨-, rfl⟩ := orderly.eq_of_key (List.mem_append_left _ member)
    (List.mem_append_right _ List.mem_cons_self) same (.inl rfl)
  rfl

theorem get?_eq_none (holds : Holds origin done table)
    (orderly : Orderly (done.map (origin, ·) ++ (origin, block) :: rest)) :
    table.get? (block.key origin) = none ∧
      table.get? (Key.inOrigin block.symbol origin) = none := by
  constructor
  · cases found : table.get? (block.key origin) with
    | none => rfl
    | some record =>
        obtain ⟨other, listed, -, -, keyed, -⟩ := (holds.records _ _).mp found
        exact absurd keyed (fresh orderly listed).1
  · cases found : table.get? (Key.inOrigin block.symbol origin) with
    | none => rfl
    | some record =>
        obtain ⟨other, listed, genuine, -, keyed, -⟩ := (holds.records _ _).mp found
        have member : (origin, other) ∈ done.map (origin, ·) :=
          List.mem_map.mpr ⟨other, listed, rfl⟩
        exact absurd (Declares.mk member genuine keyed) orderly.not_declares

/-- A block adds its record, or the memory of its unit. -/
theorem enters (holds : Holds origin done table)
    (orderly : Orderly (done.map (origin, ·) ++ (origin, block) :: rest))
    (genuine : block.isArtificial = false) (enters : block.Enters origin table after) :
    Holds origin (done ++ [block]) (after.dropSpurious (block.key origin)) := by
  have sound := orderly.sound (origin, block) (by simp)
  obtain ⟨absent, -⟩ := holds.get?_eq_none orderly
  have entered : ∀ own, after.get? own =
      if own = block.key origin then some (block.extend origin none) else table.get? own := by
    intro own
    rw [enters.records, absent]
  have spurious : after.isSpurious (block.key origin) = !(block.extend origin none).hasEdges := by
    rw [Table.isSpurious, entered, if_pos rfl]
  constructor
  · intro key record
    rw [Table.get?_dropSpurious, entered, entered, if_pos rfl, exists_mem_concat]
    split
    · next same =>
        subst same
        rw [or_iff_right, Option.filter_eq_some_iff, Option.some_inj]
        · constructor
          · rintro ⟨rfl, linked⟩
            exact ⟨genuine, linked, rfl, rfl⟩
          · rintro ⟨-, linked, -, rfl⟩
            exact ⟨rfl, linked⟩
        · rintro ⟨other, listed, -, -, keyed, -⟩
          exact (fresh orderly listed).1 keyed
    · next different =>
        rw [holds.records, or_iff_left]
        rintro ⟨-, -, keyed, -⟩
        exact different keyed.symm
  · intro key elsewhere
    rw [Table.detached_dropSpurious, enters.detached, spurious, exists_mem_concat]
    split
    · next dropped =>
        obtain ⟨rfl, unmarked, unlinked⟩ := dropped
        obtain ⟨exported, keyed⟩ := sound.eq_of_unmarked unmarked rfl
        have brought : elsewhere ∈ block.origins origin ↔
            block.isExternal = false ∧ elsewhere = origin := by
          unfold Block.origins
          cases block.isExternal <;> simp
        have memory : ((after.get? (block.key origin)).map Record.origins).getD [] =
            block.origins origin := by
          rw [entered, if_pos rfl, Option.map_some, Option.getD_some, Block.origins_extend,
            Option.elim_none]
        rw [mem_union, holds.detached, memory, brought, or_iff_right, or_iff_right]
        · constructor
          · rintro ⟨defined, same⟩
            exact ⟨same, exported, defined, by simpa using unlinked, keyed⟩
          · rintro ⟨same, -, defined, -⟩
            exact ⟨defined, same⟩
        · rintro ⟨other, listed, -, -, -, symbols⟩
          exact (fresh orderly listed).2 (symbols.trans keyed.symm)
        · rintro ⟨-, other, listed, -, -, -, symbols⟩
          exact (fresh orderly listed).2 (symbols.trans keyed.symm)
    · next stays =>
        rw [holds.detached, or_iff_left]
        rintro ⟨exported, -, unlinked, rfl⟩
        have keyed := Block.key_of_exported exported origin
        exact stays ⟨keyed.symm, by rw [keyed, sound.unmarked], by simp [unlinked]⟩

/-- One more block is read. -/
theorem readBlock (holds : Holds origin done (finishedTable table current))
    (orderly : Orderly (done.map (origin, ·) ++ (origin, block) :: rest))
    (standing : Reflects.Current (done.map (origin, ·)) origin current) :
    ∃ after, Moves origin block.lines table current after (block.key origin) ∧
      Holds origin (done ++ [block]) (finishedTable after (block.key origin)) := by
  have sound := orderly.sound (origin, block) (by simp)
  have closing := @Reflects.closedTable_eq _ rest table current origin block orderly standing
  obtain ⟨absent, privateAbsent⟩ := holds.get?_eq_none orderly
  cases isArtificial : block.isArtificial with
  | true =>
      obtain ⟨after, moves, records, detached⟩ :=
        sound.moves_artificial isArtificial closing privateAbsent
      refine ⟨after, moves, ?_⟩
      rw [finishedTable_of_absent ((records _).trans absent)]
      exact (holds.artificial sound isArtificial).congr records detached
  | false =>
      obtain ⟨after, moves, entered⟩ := sound.moves isArtificial closing privateAbsent
        fun stored found => by cases absent.symm.trans found
      have nonempty : (block.key origin).isEmpty = false := by
        rw [Bool.eq_false_iff, ne_eq, String.isEmpty_iff]
        exact sound.key_ne_empty origin
      refine ⟨after, moves, ?_⟩
      rw [finishedTable, nonempty, if_neg Bool.false_ne_true]
      exact holds.enters orderly isArtificial entered

/-- The blocks of a unit are read, one after another. -/
theorem readBlocks {blocks : List Block} (holds : Holds origin done (finishedTable table current))
    (orderly : Orderly ((done ++ blocks).map (origin, ·)))
    (standing : Reflects.Current (done.map (origin, ·)) origin current) :
    ∃ after final, Moves origin (blocks.flatMap Block.lines) table current after final ∧
      Holds origin (done ++ blocks) (finishedTable after final) := by
  rw [List.map_append] at orderly
  exact @exists_moves_of_blocks origin [] (Holds origin) done blocks table current
    readBlock holds orderly standing

end Holds

/-! ## Written units -/

namespace WrittenUnit

variable {unit : WrittenUnit}

theorem Valid.orderly (valid : unit.Valid) (origin : Origin) :
    Orderly ((unit.blocks.map WrittenBlock.toBlock).map (origin, ·)) where
  sound entry member := by
    simp only [List.mem_map] at member
    obtain ⟨_, ⟨block, listed, rfl⟩, rfl⟩ := member
    exact (valid.blocks block listed).sound_toBlock
  distinct := by
    have injective : Function.Injective fun symbol : String => (origin, symbol) :=
      fun _ _ same => congrArg Prod.snd same
    have pairs := valid.symbols.map injective
    rw [List.map_map] at pairs
    rw [List.map_map, List.map_map]
    exact pairs
  agree left leftMember right rightMember _ _ same := by
    simp only [List.mem_map] at leftMember rightMember
    obtain ⟨_, ⟨block, listed, rfl⟩, rfl⟩ := leftMember
    obtain ⟨_, ⟨other, otherListed, rfl⟩, rfl⟩ := rightMember
    rw [List.inj_on_of_nodup_map valid.symbols listed otherListed same]

/-- Reading a dump undoes its writing.  The table holds the records of the blocks that are not
artificial and list an edge, and nothing else; the unit is remembered for the public symbols that
it defines without listing an edge. -/
theorem Valid.readTextInto_text (valid : unit.Valid) (origin : Origin) :
    ∃ reader, readTextInto ∅ origin unit.text = .ok () reader ∧
      (∀ key record, reader.table.get? key = some record ↔
        ∃ block ∈ unit.blocks, block.standing ≠ .artificial ∧ block.hasEdges = true ∧
          block.key origin = key ∧ block.record origin = record) ∧
      ∀ key elsewhere, elsewhere ∈ (reader.table.detached.get? key).getD [] ↔
        elsewhere = origin ∧ ∃ block ∈ unit.blocks, block.standing = .exported ∧
          block.hasEdges = false ∧ block.symbol = key := by
  obtain ⟨after, final, moves, holds⟩ := (Holds.empty origin).readBlocks (valid.orderly origin)
    (.inl rfl)
  rw [List.nil_append] at holds
  obtain ⟨reader, read, reached⟩ :=
    readLinesInto_ok_iff.mpr ⟨_, valid.read_section, after, final, moves, rfl⟩
  refine ⟨reader, read, fun key record => ?_, fun key elsewhere => ?_⟩
  · rw [reached, holds.records]
    simp only [List.mem_map, exists_exists_and_eq_and]
    refine exists_congr fun block => and_congr_right fun written => ?_
    have blockValid := valid.blocks block written
    rw [blockValid.extend_toBlock, WrittenBlock.hasEdges_record, blockValid.isArtificial_toBlock,
      blockValid.key_toBlock, beq_eq_false_iff_ne]
  · rw [reached, holds.detached]
    simp only [List.mem_map, exists_exists_and_eq_and]
    refine and_congr_right fun _ => exists_congr fun block => and_congr_right fun written => ?_
    have blockValid := valid.blocks block written
    have publicly : block.standing.isExported = true ∧ (block.standing == .external) = false ↔
        block.standing = .exported := by
      cases block.standing <;> decide
    rw [blockValid.extend_toBlock, WrittenBlock.hasEdges_record, blockValid.isExported_toBlock,
      blockValid.isExternal_toBlock, ← and_assoc, publicly]
    rfl

/-- A unit with a block of every standing, and with nested annotations. -/
def annotatedUnit : WrittenUnit where
  preamble := ["Removing unused symbols:", "  helper/4"]
  gap := ""
  blocks :=
    [{ symbol := "main", ordinal := "3", name := "int main(void)", address := "7f1c"
       kind := .function, type := "function definition analyzed"
       standing := .exported, visibility := "force_output public"
       lists := [(.calls, [⟨"count", "1", " (1073741824 (estimated locally),1.00 per call)"⟩,
         ⟨"puts", "2", ""⟩, ⟨"count", "1", ""⟩])] },
     { symbol := "count", ordinal := "1", name := "count", address := "7f2d"
       kind := .function, type := "function definition analyzed"
       standing := .fileLocal, visibility := "prevailing_def_ironly"
       lists := [(.calls, []), (.calledBy, [⟨"main", "3", " (can throw)"⟩])] },
     { symbol := "puts", ordinal := "2", name := "puts", address := "7f3e"
       kind := .function, type := "function"
       standing := .external, visibility := "external public"
       lists := [(.calledBy, [⟨"main", "3", ""⟩])] },
     { symbol := ".LC0", ordinal := "5", name := "*.LC0", address := "7f4f"
       kind := .object, type := "variable definition"
       standing := .artificial, visibility := "artificial"
       lists := [(.referring, [⟨"main", "3", " (read)"⟩])] }]
  closing := ""
  rest := "Final Symbol table:\n\nmain/3 (main) @0x7f1c\n"

theorem readTextInto_annotatedUnit :
    ∃ reader, readTextInto ∅ "main.c" annotatedUnit.text = .ok () reader ∧
      reader.table.get? "main" = some
        { name := "int main(void)", kind := some .function, visibility := some .exported
          origins := ["main.c"], calls := ["count", "puts"] } ∧
      reader.table.get? "count@main.c" = some
        { name := "count", kind := some .function, visibility := some .fileLocal
          origins := ["main.c"], calledBy := ["main"] } ∧
      reader.table.get? "puts" = some
        { name := "puts", kind := some .function, visibility := some .exported
          calledBy := ["main"] } := by
  have valid : annotatedUnit.Valid := by decide +kernel
  obtain ⟨reader, read, records, -⟩ := valid.readTextInto_text "main.c"
  exact ⟨reader, read, (records _ _).mpr (by decide +kernel), (records _ _).mpr (by decide +kernel),
    (records _ _).mpr (by decide +kernel)⟩

end WrittenUnit

end CallGraph.Dump
