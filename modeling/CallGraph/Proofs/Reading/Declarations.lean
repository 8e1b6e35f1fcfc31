import CallGraph.Proofs.Reading.Blocks
import Mathlib.Data.List.Nodup
import Mathlib.Tactic.MkIffOfInductiveProp

/-!
# What a table knows after blocks

`Reflects` says what the table holds after a list of blocks was read: under every key the symbols
that its blocks list, and the origins of its definitions, of which those of a public symbol are
remembered even while it has no edge.  One block keeps it so, and with it every list of blocks and
every list of units in which no unit has two blocks of a symbol and the public blocks of a symbol
agree on its kind.
-/

namespace CallGraph

namespace Table

/-- The origins of a key, with those that are kept for its return. -/
def knownOrigins (table : Table) (key : Key) : List Origin :=
  union (((table.get? key).map Record.origins).getD []) ((table.detached.get? key).getD [])

theorem mem_knownOrigins_iff {table : Table} {key : Key} {origin : Origin} :
    origin ∈ table.knownOrigins key ↔
      (∃ record, table.get? key = some record ∧ origin ∈ record.origins) ∨
        origin ∈ (table.detached.get? key).getD [] := by
  rw [knownOrigins, mem_union]
  cases table.get? key <;> simp

/-- Dropping a symbol invents no origin. -/
theorem mem_knownOrigins_of_dropSpurious {table : Table} {key own : Key} {origin : Origin}
    (known : origin ∈ (table.dropSpurious key).knownOrigins own) :
    origin ∈ table.knownOrigins own := by
  rw [mem_knownOrigins_iff, get?_dropSpurious, detached_dropSpurious] at known
  rw [mem_knownOrigins_iff]
  rcases known with ⟨record, found, listed⟩ | kept
  · refine .inl ⟨record, ?_, listed⟩
    split at found
    · next same => exact same ▸ (Option.filter_eq_some_iff.mp found).1
    · exact found
  · split at kept
    · next dropped =>
        rw [mem_union] at kept
        rw [dropped.1]
        refine kept.symm.imp_left fun listed => ?_
        cases found : table.get? key <;> simp_all
    · exact .inr kept

/-- Dropping forgets no origin of a public symbol, and none of a symbol that stays. -/
theorem mem_knownOrigins_dropSpurious {table : Table} {key own : Key} {origin : Origin}
    (safe : Key.isPrivate own = false ∨ (table.dropSpurious key).contains own = true)
    (known : origin ∈ table.knownOrigins own) :
    origin ∈ (table.dropSpurious key).knownOrigins own := by
  rw [contains_iff, get?_dropSpurious] at safe
  rw [mem_knownOrigins_iff] at known
  rw [mem_knownOrigins_iff, get?_dropSpurious, detached_dropSpurious]
  by_cases same : own = key
  · subst same
    rw [if_pos rfl] at safe ⊢
    unfold isSpurious
    cases found : table.get? own with
    | none =>
        rw [found] at known
        simpa using known
    | some record =>
        cases linked : record.hasEdges with
        | true => simpa [found, linked, Option.filter] using known
        | false =>
            have unmarked : Key.isPrivate own = false := by
              simpa [found, linked, Option.filter] using safe
            rw [found] at known
            simp only [linked, unmarked, Option.filter, Bool.not_false, and_self, if_true,
              Bool.false_eq_true, if_false, reduceCtorEq, false_and, exists_false, false_or,
              mem_union, Option.map_some, Option.getD_some]
            simpa [or_comm] using known
  · simpa [same] using known

end Table

namespace Dump

namespace Block.Enters

variable {block : Block} {origin : Origin} {table after : Table}

/-- A block adds the symbols that it lists to its key. -/
theorem mem_edgesOf_iff (enters : block.Enters origin table after) {key : Key} {field : EdgeField}
    {token : String} :
    token ∈ after.edgesOf key field ↔
      token ∈ table.edgesOf key field ∨ key = block.key origin ∧ token ∈ block.tokens field := by
  rw [Table.mem_edgesOf_iff, enters.records]
  split
  · next same =>
      simp [same, Block.mem_edges_extend, Table.mem_edgesOf_iff]
  · next different => simp [different, Table.mem_edgesOf_iff]

/-- A definition adds its origin to its key. -/
theorem mem_knownOrigins_iff (enters : block.Enters origin table after) {key : Key}
    {elsewhere : Origin} :
    elsewhere ∈ after.knownOrigins key ↔
      elsewhere ∈ table.knownOrigins key ∨
        key = block.key origin ∧ block.isExternal = false ∧ elsewhere = origin := by
  have brought : elsewhere ∈ block.origins origin ↔
      block.isExternal = false ∧ elsewhere = origin := by
    unfold Block.origins
    cases block.isExternal <;> simp
  rw [Table.mem_knownOrigins_iff, Table.mem_knownOrigins_iff, enters.records, enters.detached]
  split
  · next same =>
      subst same
      cases stored : table.get? (block.key origin) with
      | none => simp [Block.origins_extend, brought, or_comm]
      | some record =>
          simp only [Option.some.injEq, exists_eq_left', Block.origins_extend, Option.elim_some,
            mem_union, brought, true_and]
          rw [or_right_comm]
  · next different => simp [different]

/-- The records when a block is closed: its own if it has an edge, and the others as they were. -/
theorem get?_closed (enters : block.Enters origin table after) {key : Key} {record : Record}
    (found : (after.dropSpurious (block.key origin)).get? key = some record) :
    (key = block.key origin ∧ record = block.extend origin (table.get? (block.key origin)) ∧
        record.hasEdges = true) ∨
      (key ≠ block.key origin ∧ table.get? key = some record) := by
  rw [Table.get?_dropSpurious, enters.records, enters.records, if_pos rfl] at found
  split at found
  · next same =>
      obtain ⟨present, linked⟩ := Option.filter_eq_some_iff.mp found
      exact .inl ⟨same, (Option.some.inj present).symm, linked⟩
  · next different => exact .inr ⟨different, found⟩

end Block.Enters

/-- A block that is not artificial declares its key for its unit. -/
structure Declares (done : List (Origin × Block)) (key : Key) (origin : Origin)
    (block : Block) : Prop where
  /-- The block was read. -/
  listed : (origin, block) ∈ done
  /-- It is not artificial. -/
  genuine : block.isArtificial = false
  /-- The key is its key. -/
  keyed : block.key origin = key

theorem declares_append_iff {done : List (Origin × Block)} {key : Key} {origin elsewhere : Origin}
    {block other : Block} :
    Declares (done ++ [(origin, block)]) key elsewhere other ↔
      Declares done key elsewhere other ∨
        (elsewhere = origin ∧ other = block) ∧ block.isArtificial = false ∧
          block.key origin = key := by
  constructor
  · rintro ⟨listed, genuine, keyed⟩
    rcases List.mem_append.mp listed with old | new
    · exact .inl ⟨old, genuine, keyed⟩
    · cases List.mem_singleton.mp new
      exact .inr ⟨⟨rfl, rfl⟩, genuine, keyed⟩
  · rintro (⟨listed, genuine, keyed⟩ | ⟨⟨rfl, rfl⟩, genuine, keyed⟩)
    · exact ⟨List.mem_append_left _ listed, genuine, keyed⟩
    · exact ⟨List.mem_append_right _ List.mem_cons_self, genuine, keyed⟩

/-- What a table knows after blocks were read. -/
structure Reflects (done : List (Origin × Block)) (table : Table) : Prop where
  /-- A record holds the symbols that the blocks of its key list. -/
  edges : ∀ key field token, token ∈ table.edgesOf key field ↔
    ∃ origin block, Declares done key origin block ∧ token ∈ block.tokens field
  /-- Every record has an edge. -/
  connected : ∀ key record, table.get? key = some record → record.hasEdges = true
  /-- A record agrees with a block on kind and visibility. -/
  declared : ∀ key record, table.get? key = some record →
    ∃ origin block, Declares done key origin block ∧ record.kind = block.kind ∧
      record.visibility = some block.audience
  /-- Every known origin is that of a definition. -/
  known : ∀ key origin, origin ∈ table.knownOrigins key →
    ∃ block, Declares done key origin block ∧ block.isExternal = false
  /-- The definitions of a public symbol, and those of a symbol in the table, are known. -/
  remembered : ∀ key origin block, Declares done key origin block → block.isExternal = false →
    Key.isPrivate key = false ∨ table.contains key = true → origin ∈ table.knownOrigins key
  /-- No record repeats an origin. -/
  distinct : ∀ key record, table.get? key = some record → record.origins.Nodup

namespace Reflects

variable {done : List (Origin × Block)} {table after : Table} {origin : Origin} {block : Block}

theorem empty : Reflects [] ∅ where
  edges key field token := by
    constructor
    · intro member
      cases member
    · rintro ⟨origin, block, ⟨listed, -, -⟩, -⟩
      cases listed
  connected key record found := by cases found
  declared key record found := by cases found
  known key origin known := by cases known
  remembered key origin block declares := by cases declares.listed
  distinct key record found := by cases found

/-- Only look-up matters. -/
theorem congr (reflects : Reflects done table) (records : ∀ key, after.get? key = table.get? key)
    (detached : after.detached = table.detached) : Reflects done after where
  edges key field token := by
    rw [← reflects.edges, Table.edgesOf, Table.edgesOf, records]
  connected key record found := reflects.connected key record (records key ▸ found)
  declared key record found := reflects.declared key record (records key ▸ found)
  known key origin known := by
    rw [Table.knownOrigins, records, detached] at known
    exact reflects.known key origin known
  remembered key origin block declares defined safe := by
    rw [Table.contains_iff, records, ← Table.contains_iff] at safe
    rw [Table.knownOrigins, records, detached]
    exact reflects.remembered key origin block declares defined safe
  distinct key record found := reflects.distinct key record (records key ▸ found)

/-- An artificial block adds nothing. -/
theorem artificial (reflects : Reflects done table) (isArtificial : block.isArtificial = true) :
    Reflects (done ++ [(origin, block)]) table := by
  have same : ∀ key elsewhere other, Declares (done ++ [(origin, block)]) key elsewhere other ↔
      Declares done key elsewhere other := by
    intro key elsewhere other
    rw [declares_append_iff, isArtificial]
    simp
  constructor
  · simpa only [same] using reflects.edges
  · exact reflects.connected
  · simpa only [same] using reflects.declared
  · simpa only [same] using reflects.known
  · simpa only [same] using reflects.remembered
  · exact reflects.distinct

/-- A block changes what the table knows of its key. -/
theorem enters (reflects : Reflects done table) (genuine : block.isArtificial = false)
    (fresh : block.isExported = false →
      ∀ elsewhere other, ¬ Declares done (block.key origin) elsewhere other)
    (sound : block.Sound)
    (agrees : ∀ stored, table.get? (block.key origin) = some stored →
      stored.kind = block.kind ∧ stored.visibility = some block.audience)
    (enters : block.Enters origin table after) :
    Reflects (done ++ [(origin, block)]) (after.dropSpurious (block.key origin)) := by
  have own : Declares (done ++ [(origin, block)]) (block.key origin) origin block :=
    declares_append_iff.mpr (.inr ⟨⟨rfl, rfl⟩, genuine, rfl⟩)
  have earlier : ∀ {key elsewhere other}, Declares done key elsewhere other →
      Declares (done ++ [(origin, block)]) key elsewhere other := fun declares =>
    declares_append_iff.mpr (.inl declares)
  constructor
  case edges =>
    intro key field token
    rw [Table.edgesOf_dropSpurious, enters.mem_edgesOf_iff, reflects.edges]
    simp only [declares_append_iff]
    constructor
    · rintro (⟨elsewhere, other, declares, member⟩ | ⟨rfl, member⟩)
      · exact ⟨elsewhere, other, .inl declares, member⟩
      · exact ⟨origin, block, .inr ⟨⟨rfl, rfl⟩, genuine, rfl⟩, member⟩
    · rintro ⟨elsewhere, other, declares | ⟨⟨rfl, rfl⟩, -, keyed⟩, member⟩
      · exact .inl ⟨elsewhere, other, declares, member⟩
      · exact .inr ⟨keyed.symm, member⟩
  case connected =>
    intro key record found
    rcases enters.get?_closed found with ⟨-, -, linked⟩ | ⟨-, before⟩
    · exact linked
    · exact reflects.connected key record before
  case declared =>
    intro key record found
    rcases enters.get?_closed found with ⟨rfl, rfl, -⟩ | ⟨-, before⟩
    · refine ⟨origin, block, own, ?_, ?_⟩
      · exact Block.kind_extend fun stored present => (agrees stored present).1
      · exact Block.visibility_extend fun stored present => (agrees stored present).2
    · obtain ⟨elsewhere, other, declares, same⟩ := reflects.declared key record before
      exact ⟨elsewhere, other, earlier declares, same⟩
  case known =>
    intro key elsewhere known
    rcases enters.mem_knownOrigins_iff.mp (Table.mem_knownOrigins_of_dropSpurious known) with
      old | ⟨rfl, defined, rfl⟩
    · obtain ⟨other, declares, defined⟩ := reflects.known key elsewhere old
      exact ⟨other, earlier declares, defined⟩
    · exact ⟨block, own, defined⟩
  case remembered =>
    intro key elsewhere other declares defined safe
    apply Table.mem_knownOrigins_dropSpurious safe
    rw [enters.mem_knownOrigins_iff]
    rcases declares_append_iff.mp declares with old | ⟨⟨rfl, rfl⟩, -, keyed⟩
    · refine .inl (reflects.remembered key elsewhere other old defined ?_)
      rcases safe with unmarked | present
      · exact .inl unmarked
      · obtain ⟨record, found⟩ := (Table.contains_iff _ key).mp present
        rcases enters.get?_closed found with ⟨rfl, -, -⟩ | ⟨-, before⟩
        · -- The key of a private block is new, so this block is public.
          left
          rw [sound.isPrivate_key]
          cases exported : block.isExported with
          | true => rfl
          | false => exact absurd old (fresh exported elsewhere other)
        · exact .inr ((table.contains_iff key).mpr ⟨record, before⟩)
    · exact .inr ⟨keyed.symm, defined, rfl⟩
  case distinct =>
    intro key record found
    rcases enters.get?_closed found with ⟨-, rfl, -⟩ | ⟨-, before⟩
    · exact Block.nodup_origins_extend (reflects.distinct _)
    · exact reflects.distinct key record before

end Reflects

/-! ## Lists of blocks -/

/-- What is asked of the blocks of several units together: no unit has two of a symbol, and the
public ones of a symbol agree on its kind. -/
structure Orderly (blocks : List (Origin × Block)) : Prop where
  /-- Each block is sound. -/
  sound : ∀ entry ∈ blocks, entry.2.Sound
  /-- No unit has two blocks of a symbol. -/
  distinct : (blocks.map fun entry => (entry.1, entry.2.symbol)).Nodup
  /-- Public blocks of one symbol agree on its kind. -/
  agree : ∀ left ∈ blocks, ∀ right ∈ blocks, left.2.isExported = true →
    right.2.isExported = true → left.2.symbol = right.2.symbol → left.2.kind = right.2.kind

namespace Orderly

variable {done rest : List (Origin × Block)} {origin : Origin} {block : Block}

theorem left {blocks : List (Origin × Block)} (orderly : Orderly (done ++ blocks)) :
    Orderly done where
  sound entry member := orderly.sound entry (List.mem_append_left _ member)
  distinct := by
    have distinct := orderly.distinct
    rw [List.map_append] at distinct
    exact (List.nodup_append.mp distinct).1
  agree left leftMember right rightMember :=
    orderly.agree left (List.mem_append_left _ leftMember) right
      (List.mem_append_left _ rightMember)

/-- A block is told by its unit and its symbol. -/
theorem eq_of_symbol {blocks : List (Origin × Block)} (orderly : Orderly blocks)
    {other : Block} (listed : (origin, block) ∈ blocks) (otherListed : (origin, other) ∈ blocks)
    (same : block.symbol = other.symbol) : block = other := by
  have pair := List.inj_on_of_nodup_map orderly.distinct listed otherListed (by simp [same])
  exact congrArg Prod.snd pair

/-- A block is told by its key and, if that is public, its unit. -/
theorem eq_of_key {blocks : List (Origin × Block)} (orderly : Orderly blocks)
    {elsewhere : Origin} {other : Block} (listed : (origin, block) ∈ blocks)
    (otherListed : (elsewhere, other) ∈ blocks) (same : block.key origin = other.key elsewhere)
    (told : origin = elsewhere ∨ Key.isPrivate (block.key origin) = true) :
    origin = elsewhere ∧ block = other := by
  have sound := orderly.sound _ listed
  have otherSound := orderly.sound _ otherListed
  cases exported : block.isExported with
  | true =>
      obtain rfl : origin = elsewhere := by
        refine told.resolve_right ?_
        simp [sound.isPrivate_key, exported]
      rw [Block.key_of_exported exported] at same
      obtain ⟨-, symbols⟩ := otherSound.eq_of_unmarked sound.unmarked same.symm
      exact ⟨rfl, orderly.eq_of_symbol listed otherListed symbols.symm⟩
  | false =>
      rw [Block.key_of_hidden exported] at same
      obtain ⟨-, symbols, rfl⟩ := otherSound.eq_of_inOrigin sound.unmarked same.symm
      exact ⟨rfl, orderly.eq_of_symbol listed otherListed symbols.symm⟩

/-- The block that comes next is none of those before. -/
theorem not_mem (orderly : Orderly (done ++ (origin, block) :: rest)) {earlier : Block}
    (listed : (origin, earlier) ∈ done) : earlier.symbol ≠ block.symbol := by
  intro same
  have distinct := orderly.distinct
  rw [List.map_append, List.map_cons, List.nodup_append] at distinct
  exact distinct.2.2 _ (List.mem_map.mpr ⟨_, listed, rfl⟩) _ List.mem_cons_self (by simp [same])

/-- Its private key is not declared. -/
theorem not_declares (orderly : Orderly (done ++ (origin, block) :: rest)) {elsewhere : Origin}
    {other : Block} : ¬ Declares done (Key.inOrigin block.symbol origin) elsewhere other := by
  intro declares
  have sound := orderly.sound (origin, block) (by simp)
  have otherSound := orderly.sound _ (List.mem_append_left _ declares.listed)
  obtain ⟨-, symbols, rfl⟩ := otherSound.eq_of_inOrigin sound.unmarked declares.keyed
  exact orderly.not_mem declares.listed symbols

end Orderly

theorem finishedTable_of_absent {table : Table} {current : Key}
    (absent : table.get? current = none) : finishedTable table current = table := by
  unfold finishedTable Table.dropSpurious
  split
  · rfl
  · rw [absent]

namespace Reflects

variable {done rest : List (Origin × Block)} {table : Table} {current : Key} {origin : Origin}
  {block : Block}

/-- The current block, if there is one, is among those read of the unit. -/
def Current (done : List (Origin × Block)) (origin : Origin) (current : Key) : Prop :=
  current = "" ∨ ∃ earlier, (origin, earlier) ∈ done ∧ current = earlier.key origin

/-- A new block closes the one before it. -/
theorem closedTable_eq (orderly : Orderly (done ++ (origin, block) :: rest))
    (standing : Current done origin current) :
    closedTable table current block.symbol (Key.inOrigin block.symbol origin) =
      finishedTable table current := by
  unfold closedTable finishedTable
  rcases standing with rfl | ⟨earlier, listed, rfl⟩
  · rfl
  · have sound := orderly.sound (origin, block) (by simp)
    have earlierSound := orderly.sound (origin, earlier) (List.mem_append_left _ listed)
    have different := orderly.not_mem listed
    have distinctKeys : earlier.key origin ≠ block.symbol ∧
        earlier.key origin ≠ Key.inOrigin block.symbol origin := by
      cases exported : earlier.isExported with
      | true =>
          rw [Block.key_of_exported exported]
          exact ⟨different, Key.ne_inOrigin earlierSound.unmarked _ _⟩
      | false =>
          rw [Block.key_of_hidden exported]
          refine ⟨(Key.ne_inOrigin sound.unmarked _ _).symm, fun same => ?_⟩
          exact different (Key.inOrigin_injective earlierSound.unmarked sound.unmarked same).1
    simp [distinctKeys, earlierSound.key_ne_empty]

end Reflects

section Blocks

variable {origin : Origin} {before : List (Origin × Block)} {known : List Block → Table → Prop}
  {done blocks : List Block} {table : Table} {current : Key}

/-- What the table knows of the blocks of a unit that were read, it knows of them all in the end, if
it knows it of one more whenever that is read. -/
theorem exists_moves_of_blocks
    (step : ∀ {done : List Block} {block : Block} {rest : List (Origin × Block)} {table : Table}
      {current : Key}, known done (finishedTable table current) →
        Orderly (before ++ done.map (origin, ·) ++ (origin, block) :: rest) →
        Reflects.Current (before ++ done.map (origin, ·)) origin current →
        ∃ after, Moves origin block.lines table current after (block.key origin) ∧
          known (done ++ [block]) (finishedTable after (block.key origin)))
    (knows : known done (finishedTable table current))
    (orderly : Orderly (before ++ done.map (origin, ·) ++ blocks.map (origin, ·)))
    (standing : Reflects.Current (before ++ done.map (origin, ·)) origin current) :
    ∃ after final, Moves origin (blocks.flatMap Block.lines) table current after final ∧
      known (done ++ blocks) (finishedTable after final) := by
  induction blocks generalizing done table current with
  | nil => exact ⟨table, current, .nil table current, by simpa using knows⟩
  | cons block blocks induction =>
      obtain ⟨middle, first, knowsMore⟩ := step knows orderly standing
      have regrouped : before ++ done.map (origin, ·) ++ (block :: blocks).map (origin, ·) =
          before ++ (done ++ [block]).map (origin, ·) ++ blocks.map (origin, ·) := by simp
      rw [regrouped] at orderly
      obtain ⟨after, final, later, knowsAll⟩ := induction knowsMore orderly
        (.inr ⟨block, by simp, rfl⟩)
      rw [List.append_assoc, List.singleton_append] at knowsAll
      exact ⟨after, final, first.append later, knowsAll⟩

end Blocks

namespace Reflects

variable {done rest : List (Origin × Block)} {table : Table} {current : Key} {origin : Origin}
  {block : Block}

/-- The table does not know the private key of the next block. -/
theorem get?_inOrigin (reflects : Reflects done table)
    (orderly : Orderly (done ++ (origin, block) :: rest)) :
    table.get? (Key.inOrigin block.symbol origin) = none := by
  cases found : table.get? (Key.inOrigin block.symbol origin) with
  | none => rfl
  | some record =>
      obtain ⟨elsewhere, other, declares, -⟩ := reflects.declared _ record found
      exact absurd declares orderly.not_declares

/-- A record of the key of the next block agrees with it. -/
theorem agrees (reflects : Reflects done table)
    (orderly : Orderly (done ++ (origin, block) :: rest)) {stored : Record}
    (found : table.get? (block.key origin) = some stored) :
    stored.kind = block.kind ∧ stored.visibility = some block.audience := by
  have sound := orderly.sound (origin, block) (by simp)
  cases exported : block.isExported with
  | false =>
      rw [Block.key_of_hidden exported, reflects.get?_inOrigin orderly] at found
      cases found
  | true =>
      obtain ⟨elsewhere, other, declares, kind, visibility⟩ := reflects.declared _ stored found
      have otherSound := orderly.sound _ (List.mem_append_left _ declares.listed)
      obtain ⟨otherExported, symbols⟩ := otherSound.eq_of_unmarked sound.unmarked
        (declares.keyed.trans (Block.key_of_exported exported origin))
      have kinds := orderly.agree _ (List.mem_append_left _ declares.listed) (origin, block)
        (by simp) otherExported exported symbols
      rw [kind, visibility, Block.audience, Block.audience, exported, otherExported]
      exact ⟨kinds, rfl⟩

/-- One more block is read, and the table knows it. -/
theorem readBlock (reflects : Reflects done (finishedTable table current))
    (orderly : Orderly (done ++ (origin, block) :: rest))
    (standing : Current done origin current) :
    ∃ after, Moves origin block.lines table current after (block.key origin) ∧
      Reflects (done ++ [(origin, block)]) (finishedTable after (block.key origin)) := by
  have sound := orderly.sound (origin, block) (by simp)
  have closing := @closedTable_eq done rest table current origin block orderly standing
  have absent := reflects.get?_inOrigin orderly
  cases isArtificial : block.isArtificial with
  | true =>
      obtain ⟨after, moves, records, detached⟩ :=
        sound.moves_artificial isArtificial closing absent
      have hidden : block.isExported = false := by
        cases exported : block.isExported with
        | false => rfl
        | true => cases (sound.isArtificial_eq exported).symm.trans isArtificial
      have gone : after.get? (block.key origin) = none := by
        rw [Block.key_of_hidden hidden, records, absent]
      refine ⟨after, moves, ?_⟩
      rw [finishedTable_of_absent gone]
      exact (reflects.artificial isArtificial).congr records detached
  | false =>
      obtain ⟨after, moves, enters⟩ := sound.moves isArtificial closing absent
        fun stored found => reflects.agrees orderly found
      have nonempty : (block.key origin).isEmpty = false := by
        rw [Bool.eq_false_iff, ne_eq, String.isEmpty_iff]
        exact sound.key_ne_empty origin
      refine ⟨after, moves, ?_⟩
      rw [finishedTable, nonempty, if_neg Bool.false_ne_true]
      refine reflects.enters isArtificial (fun hidden elsewhere other => ?_) sound
        (fun stored found => reflects.agrees orderly found) enters
      rw [Block.key_of_hidden hidden]
      exact orderly.not_declares

/-- The blocks of a unit are read, one after another. -/
theorem readBlocks {blocks : List Block} (reflects : Reflects done (finishedTable table current))
    (orderly : Orderly (done ++ blocks.map (origin, ·)))
    (standing : Current done origin current) :
    ∃ after final, Moves origin (blocks.flatMap Block.lines) table current after final ∧
      Reflects (done ++ blocks.map (origin, ·)) (finishedTable after final) := by
  refine @exists_moves_of_blocks origin done (fun read => Reflects (done ++ read.map (origin, ·)))
    [] blocks table current ?_ (by simpa using reflects) (by simpa using orderly)
    (by simpa using standing)
  intro read block rest table current reflects orderly standing
  rw [List.map_append, ← List.append_assoc]
  exact reflects.readBlock orderly standing

end Reflects

/-! ## Units -/

/-- A unit of a dump whose lines, apart from those that are passed over, make up blocks. -/
structure Listing where
  /-- The compilation unit. -/
  origin : Origin
  /-- The lines of its symbol table section. -/
  lines : List String
  /-- Its blocks, in their order. -/
  blocks : List Block
  /-- The lines say what the blocks say. -/
  reads : ∃ items : List Line, lines.map readLine = items.map .ok ∧
    items.filter (· ≠ .other) = blocks.flatMap Block.lines

/-- A unit all of whose lines belong to its blocks. -/
def Listing.ofBlocks (origin : Origin) (lines : List String) (blocks : List Block)
    (reads : lines.map readLine = (blocks.flatMap Block.lines).map .ok) : Listing where
  origin := origin
  lines := lines
  blocks := blocks
  reads := by
    refine ⟨blocks.flatMap Block.lines, reads, ?_⟩
    rw [List.filter_eq_self]
    intro item member
    obtain ⟨block, -, said⟩ := List.mem_flatMap.mp member
    rw [Block.lines] at said
    grind

/-- The blocks of several units, each with its unit. -/
def declarations (units : List Listing) : List (Origin × Block) :=
  units.flatMap fun unit => unit.blocks.map (unit.origin, ·)

theorem mem_declarations_iff {units : List Listing} {origin : Origin} {block : Block} :
    (origin, block) ∈ declarations units ↔
      ∃ unit ∈ units, unit.origin = origin ∧ block ∈ unit.blocks := by
  simp only [declarations, List.mem_flatMap, List.mem_map, Prod.mk.injEq]
  constructor
  · rintro ⟨unit, member, other, listed, rfl, rfl⟩
    exact ⟨unit, member, rfl, listed⟩
  · rintro ⟨unit, member, rfl, listed⟩
    exact ⟨unit, member, block, listed, rfl, rfl⟩

/-- The symbol of a block is one that a header can have. -/
theorem Listing.header_of_block {unit : Listing} {block : Block} (listed : block ∈ unit.blocks) :
    block.symbol ≠ "" ∧ Key.isPrivate block.symbol = false := by
  obtain ⟨items, reads, filtered⟩ := unit.reads
  have said : .header block.header ∈ items.filter (· ≠ .other) := by
    rw [filtered]
    exact List.mem_flatMap.mpr ⟨block, listed, List.mem_cons_self⟩
  have read : (.ok (.header block.header) : Except LineError Line) ∈ unit.lines.map readLine := by
    rw [reads]
    exact List.mem_map.mpr ⟨_, (List.mem_filter.mp said).1, rfl⟩
  obtain ⟨line, -, lineRead⟩ := List.mem_map.mp read
  obtain ⟨named, -, unmarked, -⟩ := header_of_readLine lineRead
  exact ⟨named, unmarked⟩

/-- Units that can be read one after another, in any order. -/
@[mk_iff] structure Compatible (units : List Listing) : Prop where
  /-- No two units have the same origin. -/
  origins : (units.map Listing.origin).Nodup
  /-- No unit has two blocks of a symbol. -/
  symbols : ∀ unit ∈ units, (unit.blocks.map Block.symbol).Nodup
  /-- Every type is that of a function or of a variable. -/
  typed : ∀ unit ∈ units, ∀ block ∈ unit.blocks, block.kind.isSome = true
  /-- No visibility contradicts itself. -/
  coherent : ∀ unit ∈ units, ∀ block ∈ unit.blocks,
    Flags.read block.visibility = .ok (Flags.scan block.visibility)
  /-- Public blocks of one symbol agree on its kind. -/
  agree : ∀ left ∈ declarations units, ∀ right ∈ declarations units,
    left.2.isExported = true → right.2.isExported = true → left.2.symbol = right.2.symbol →
      left.2.kind = right.2.kind

instance (units : List Listing) : Decidable (Compatible units) :=
  decidable_of_iff' _ (compatible_iff units)

theorem Compatible.orderly {units : List Listing} (compatible : Compatible units) :
    Orderly (declarations units) where
  sound entry member := by
    obtain ⟨unit, listed, -, inUnit⟩ := mem_declarations_iff.mp member
    obtain ⟨named, unmarked⟩ := Listing.header_of_block inUnit
    exact ⟨named, unmarked, compatible.typed unit listed _ inUnit,
      compatible.coherent unit listed _ inUnit⟩
  distinct := by
    rw [declarations, List.map_flatMap, List.Nodup, List.pairwise_flatMap]
    constructor
    · intro unit member
      rw [List.map_map, List.pairwise_map]
      have symbols := compatible.symbols unit member
      rw [List.Nodup, List.pairwise_map] at symbols
      exact symbols.imp fun different same => different (congrArg Prod.snd same)
    · have origins := compatible.origins
      rw [List.Nodup, List.pairwise_map] at origins
      refine origins.imp fun different => ?_
      simp only [List.map_map, List.mem_map]
      rintro _ ⟨left, -, rfl⟩ _ ⟨right, -, rfl⟩ same
      exact different (congrArg Prod.fst same)
  agree := compatible.agree

/-- Lines that are passed over make no difference. -/
theorem Moves.of_filter {origin : Origin} {items : List Line} {table after : Table}
    {current final : Key}
    (moves : Moves origin (items.filter (· ≠ .other)) table current after final) :
    Moves origin items table current after final := by
  induction items generalizing table current with
  | nil => exact moves
  | cons item items induction =>
      by_cases passed : item = .other
      · subst passed
        exact .cons .other (induction (by simpa using moves))
      · rw [List.filter_cons_of_pos (by simpa using passed)] at moves
        cases moves with
        | cons first later => exact .cons first (induction later)

namespace Reflects

variable {done : List (Origin × Block)} {table : Table}

/-- A unit is read, and the table knows its blocks. -/
theorem readUnit {unit : Listing} (reflects : Reflects done table)
    (orderly : Orderly (done ++ unit.blocks.map (unit.origin, ·))) :
    ∃ reader, readLinesInto table unit.origin unit.lines = .ok () reader ∧
      Reflects (done ++ unit.blocks.map (unit.origin, ·)) reader.table := by
  obtain ⟨items, reads, filtered⟩ := unit.reads
  obtain ⟨after, final, moves, reached⟩ :=
    @readBlocks done table "" unit.origin unit.blocks reflects orderly (.inl rfl)
  rw [← filtered] at moves
  obtain ⟨reader, read, ended⟩ :=
    readLinesInto_ok_iff.mpr ⟨items, reads, after, final, moves.of_filter, rfl⟩
  exact ⟨reader, read, ended ▸ reached⟩

/-- Units are read, one after another, and the table knows their blocks. -/
theorem readUnits {units : List Listing} (reflects : Reflects done table)
    (orderly : Orderly (done ++ declarations units)) :
    ∃ after, readUnitsInto table (units.map fun unit => (unit.origin, unit.lines)) = .ok after ∧
      Reflects (done ++ declarations units) after := by
  induction units generalizing done table with
  | nil => exact ⟨table, rfl, by simpa [declarations] using reflects⟩
  | cons unit units induction =>
      have regrouped : done ++ declarations (unit :: units) =
          (done ++ unit.blocks.map (unit.origin, ·)) ++ declarations units := by
        simp [declarations]
      rw [regrouped] at orderly ⊢
      obtain ⟨reader, read, known⟩ := reflects.readUnit orderly.left
      obtain ⟨after, later, reached⟩ := induction known orderly
      refine ⟨after, ?_, reached⟩
      rw [List.map_cons, readUnitsInto, read]
      exact later

end Reflects

end Dump

end CallGraph
