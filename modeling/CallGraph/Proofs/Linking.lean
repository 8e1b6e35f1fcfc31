import CallGraph.Proofs.Reading.Declarations
import CallGraph.Proofs.Resolution.Reciprocity
import Mathlib.Data.List.Perm.Subperm
import Mathlib.Tactic.MkIffOfInductiveProp

/-!
# Linking

In consistent units every edge is listed at both of its ends, so a unit says which keys an edge
joins.  For a private key, and for a public symbol with at most one definition, resolution finds
exactly these edges.  A public symbol with several definitions keeps all of its edges too, but may
get others: an edge to a public symbol that another unit has for a private symbol of the same name.
-/

namespace CallGraph

namespace Dump

/-! ## The definitions of a key -/

/-- The blocks that define a key: neither artificial nor external. -/
def definitions (blocks : List (Origin × Block)) (key : Key) : List (Origin × Block) :=
  blocks.filter fun entry =>
    entry.2.key entry.1 == key && !entry.2.isArtificial && !entry.2.isExternal

theorem mem_definitions_iff {blocks : List (Origin × Block)} {key : Key} {origin : Origin}
    {block : Block} :
    (origin, block) ∈ definitions blocks key ↔
      Declares blocks key origin block ∧ block.isExternal = false := by
  simp only [definitions, List.mem_filter, Bool.and_eq_true, beq_iff_eq, Bool.not_eq_true']
  constructor
  · rintro ⟨listed, ⟨keyed, genuine⟩, defined⟩
    exact ⟨⟨listed, genuine, keyed⟩, defined⟩
  · rintro ⟨⟨listed, genuine, keyed⟩, defined⟩
    exact ⟨listed, ⟨keyed, genuine⟩, defined⟩

theorem nodup_definitions {blocks : List (Origin × Block)} (orderly : Orderly blocks) (key : Key) :
    ((definitions blocks key).map Prod.fst).Nodup := by
  have distinct : (definitions blocks key).Nodup :=
    (List.Nodup.of_map _ orderly.distinct).filter _
  rw [List.nodup_map_iff_inj_on distinct]
  rintro ⟨origin, block⟩ listed ⟨elsewhere, other⟩ otherListed rfl
  obtain ⟨declares, -⟩ := mem_definitions_iff.mp listed
  obtain ⟨otherDeclares, -⟩ := mem_definitions_iff.mp otherListed
  obtain ⟨-, rfl⟩ := orderly.eq_of_key declares.listed otherDeclares.listed
    (declares.keyed.trans otherDeclares.keyed.symm) (.inl rfl)
  rfl

/-- A private key has at most one definition. -/
theorem length_definitions_of_private {blocks : List (Origin × Block)} (orderly : Orderly blocks)
    {key : Key} (marked : Key.isPrivate key = true) : (definitions blocks key).length ≤ 1 := by
  have distinct : (definitions blocks key).Nodup :=
    (List.Nodup.of_map _ orderly.distinct).filter _
  match found : definitions blocks key with
  | [] | [_] => simp
  | (origin, block) :: (elsewhere, other) :: _ =>
      obtain ⟨declares, -⟩ := mem_definitions_iff.mp
        (show (origin, block) ∈ definitions blocks key by simp [found])
      obtain ⟨otherDeclares, -⟩ := mem_definitions_iff.mp
        (show (elsewhere, other) ∈ definitions blocks key by simp [found])
      obtain ⟨rfl, rfl⟩ := orderly.eq_of_key declares.listed otherDeclares.listed
        (declares.keyed.trans otherDeclares.keyed.symm) (.inr (declares.keyed ▸ marked))
      simp [found] at distinct

namespace Reflects

variable {blocks : List (Origin × Block)} {table : Table} {key target : Key}

/-- With the origins of dropped symbols restored, a record has the origins of its definitions. -/
theorem origins_perm (reflects : Reflects blocks table) (orderly : Orderly blocks)
    {record : Record} (found : table.restoreOrigins.get? key = some record) :
    record.origins.Perm ((definitions blocks key).map Prod.fst) := by
  rw [Table.get?_restoreOrigins] at found
  obtain ⟨stored, present, rfl⟩ := Option.map_eq_some_iff.mp found
  have known : (stored.addOrigins ((table.detached.get? key).getD [])).origins =
      table.knownOrigins key := by
    simp [Table.knownOrigins, present, Record.addOrigins]
  rw [known]
  have distinct : (table.knownOrigins key).Nodup := by
    rw [← known]
    exact nodup_union (reflects.distinct key stored present) _
  rw [List.perm_ext_iff_of_nodup distinct (nodup_definitions orderly key)]
  intro origin
  simp only [List.mem_map, Prod.exists, exists_and_right, exists_eq_right, mem_definitions_iff]
  constructor
  · exact reflects.known key origin
  · rintro ⟨block, declares, defined⟩
    exact reflects.remembered key origin block declares defined
      (.inr ((table.contains_iff key).mpr ⟨stored, present⟩))

/-- The targets of a key: what the symbols that its blocks list denote in its definitions, as far
as it is in the table and, if there are several definitions, names the key back. -/
theorem mem_targets_iff (reflects : Reflects blocks table) (orderly : Orderly blocks)
    {field : EdgeField} :
    target ∈ table.restoreOrigins.targets key field ↔
      (∃ origin block, Declares blocks key origin block ∧
        ∃ token ∈ block.tokens field, ∃ elsewhere other,
          (elsewhere, other) ∈ definitions blocks key ∧
            table.restoreOrigins.denotation token elsewhere = target) ∧
        table.contains target = true ∧
        (1 < (definitions blocks key).length → key ∈ table.edgesOf target field.inverse) := by
  rw [Table.mem_targets_iff]
  simp only [Table.contains_restoreOrigins, Table.edgesOf_restoreOrigins]
  constructor
  · rintro ⟨record, found, ⟨token, listed, origin, declared, denotes⟩, present, answers⟩
    have origins := reflects.origins_perm orderly found
    have member : token ∈ table.edgesOf key field := by
      rw [← Table.edgesOf_restoreOrigins, Table.edgesOf_eq found]
      exact listed
    obtain ⟨home, block, declares, inBlock⟩ := (reflects.edges key field token).mp member
    obtain ⟨⟨elsewhere, other⟩, defined, rfl⟩ := List.mem_map.mp (origins.mem_iff.mp declared)
    refine ⟨⟨home, block, declares, token, inBlock, elsewhere, other, defined, denotes⟩, present,
      fun several => answers ?_⟩
    rw [origins.length_eq, List.length_map]
    exact several
  · rintro ⟨⟨origin, block, declares, token, inBlock, elsewhere, other, defined, denotes⟩, present,
      answers⟩
    have member := (reflects.edges key field token).mpr ⟨origin, block, declares, inBlock⟩
    rw [← Table.edgesOf_restoreOrigins] at member
    obtain ⟨record, found, listed⟩ := Table.mem_edgesOf_iff.mp member
    have origins := reflects.origins_perm orderly found
    refine ⟨record, found, ⟨token, listed, elsewhere, ?_, denotes⟩, present, fun several => ?_⟩
    · exact origins.mem_iff.mpr (List.mem_map.mpr ⟨_, defined, rfl⟩)
    · apply answers
      rw [origins.length_eq, List.length_map] at several
      exact several

/-- A key is in the table when one of its blocks lists something. -/
theorem contains_iff (reflects : Reflects blocks table) :
    table.contains key = true ↔
      ∃ origin block, Declares blocks key origin block ∧
        ∃ field token, token ∈ block.tokens field := by
  constructor
  · intro present
    obtain ⟨record, found⟩ := (table.contains_iff key).mp present
    obtain ⟨field, token, member⟩ :=
      (Record.hasEdges_iff record).mp (reflects.connected key record found)
    rw [← Table.edgesOf_eq found] at member
    obtain ⟨origin, block, declares, listed⟩ := (reflects.edges key field token).mp member
    exact ⟨origin, block, declares, field, token, listed⟩
  · rintro ⟨origin, block, declares, field, token, listed⟩
    exact Table.contains_of_mem_edgesOf
      ((reflects.edges key field token).mpr ⟨origin, block, declares, listed⟩)

end Reflects

/-- In a unit, a bare symbol denotes the private one of the unit if that is in the table. -/
theorem denotation_of_unmarked (table : Table) {token : String}
    (unmarked : Key.isPrivate token = false) (origin : Origin) :
    table.restoreOrigins.denotation token origin =
      if table.contains (Key.inOrigin token origin) = true then Key.inOrigin token origin
      else token := by
  unfold Table.denotation Key.readings
  simp only [unmarked, Bool.false_eq_true, if_false, Table.contains_restoreOrigins]

/-! ## Consistent units -/

instance (holds : EdgeField → Prop) [DecidablePred holds] : Decidable (∀ field, holds field) :=
  decidable_of_iff (∀ field ∈ EdgeField.all, holds field)
    ⟨fun checked field => checked field (EdgeField.mem_all field), fun every field _ => every field⟩

/-- What is asked of a unit for its edges to be told: it lists an edge at both of its ends, and an
external symbol only where it is used. -/
@[mk_iff] structure Listing.Balanced (unit : Listing) : Prop where
  /-- No two blocks are of the same symbol. -/
  symbols : (unit.blocks.map Block.symbol).Nodup
  /-- Every type is that of a function or of a variable. -/
  typed : ∀ block ∈ unit.blocks, block.kind.isSome = true
  /-- No visibility contradicts itself. -/
  coherent : ∀ block ∈ unit.blocks,
    Flags.read block.visibility = .ok (Flags.scan block.visibility)
  /-- No block is artificial. -/
  genuine : ∀ block ∈ unit.blocks, block.isArtificial = false
  /-- A symbol that is listed has a block. -/
  closed : ∀ block ∈ unit.blocks, ∀ field, ∀ token ∈ block.tokens field,
    ∃ other ∈ unit.blocks, other.symbol = token
  /-- An edge is listed at both of its ends. -/
  inverse : ∀ block ∈ unit.blocks, ∀ other ∈ unit.blocks, ∀ field,
    other.symbol ∈ block.tokens field ↔ block.symbol ∈ other.tokens field.inverse
  /-- External blocks list no forward edges. -/
  external : ∀ block ∈ unit.blocks, block.isExternal = true →
    ∀ field, field.isForward = true → block.tokens field = []

/-- Units that belong together: each is balanced, no two have the same origin, and they agree on
the kinds of public symbols. -/
@[mk_iff] structure Consistent (units : List Listing) : Prop where
  /-- No two units have the same origin. -/
  origins : (units.map Listing.origin).Nodup
  /-- Every unit is balanced. -/
  balanced : ∀ unit ∈ units, unit.Balanced
  /-- Public blocks of one symbol agree on its kind. -/
  agree : ∀ left ∈ declarations units, ∀ right ∈ declarations units,
    left.2.isExported = true → right.2.isExported = true → left.2.symbol = right.2.symbol →
      left.2.kind = right.2.kind

/-- One unit lists, in a field of the block of `key`, the symbol whose block has the key
`target`. -/
def Listed (units : List Listing) (key : Key) (field : EdgeField) (target : Key) : Prop :=
  ∃ unit ∈ units, ∃ block ∈ unit.blocks, ∃ other ∈ unit.blocks,
    block.key unit.origin = key ∧ other.symbol ∈ block.tokens field ∧
      other.key unit.origin = target

/-- The edges of a symbol with several definitions that no unit lists.  One definition lists the
name of the target, another has no private symbol of that name, and a third unit has an edge from
its own private symbol to the public target. -/
@[mk_iff] structure Invented (units : List Listing) (symbol : Key) (field : EdgeField)
    (target : Key) : Prop where
  /-- A definition of the symbol lists the name. -/
  pooled : ∃ unit ∈ units, ∃ block ∈ unit.blocks,
    block.key unit.origin = symbol ∧ target ∈ block.tokens field
  /-- In the unit of a definition, no private block of that name lists anything. -/
  unshadowed : ∃ definition ∈ definitions (declarations units) symbol,
    ∀ entry ∈ declarations units, entry.1 = definition.1 → entry.2.symbol = target →
      entry.2.isExported = false → ∀ list, entry.2.tokens list = []
  /-- A unit has the edge for a private symbol of the same name. -/
  mistaken : ∃ unit ∈ units, ∃ block ∈ unit.blocks, ∃ other ∈ unit.blocks,
    block.symbol = symbol ∧ block.isExported = false ∧ target ∈ block.tokens field ∧
      other.symbol = target ∧ other.isExported = true
  /-- No unit has it for the symbol itself. -/
  unlisted : ¬ Listed units symbol field target

instance (units : List Listing) (key : Key) (field : EdgeField) (target : Key) :
    Decidable (Listed units key field target) :=
  inferInstanceAs (Decidable (∃ unit ∈ units, ∃ block ∈ unit.blocks, ∃ other ∈ unit.blocks,
    block.key unit.origin = key ∧ other.symbol ∈ block.tokens field ∧
      other.key unit.origin = target))

instance (unit : Listing) : Decidable unit.Balanced :=
  decidable_of_iff' _ unit.balanced_iff

instance (units : List Listing) : Decidable (Consistent units) :=
  decidable_of_iff' _ (consistent_iff units)

instance (units : List Listing) (symbol : Key) (field : EdgeField) (target : Key) :
    Decidable (Invented units symbol field target) :=
  decidable_of_iff' _ (invented_iff units symbol field target)

/-- Three units with functions `A` and `B`: the first defines `A`, which calls its own private `B`;
the second defines `A` again; the third has a private `A` that calls the public `B`. -/
def namesakes : List Listing :=
  [.ofBlocks "a"
      ["A/0 (A) @0x0", "  Type: function", "  Visibility: public", "  Calls: B/1",
        "B/1 (B) @0x1", "  Type: function", "  Visibility:", "  Called by: A/0"]
      [⟨⟨"A", "A", "0"⟩, "function", "public", [(.calls, "B/1")]⟩,
        ⟨⟨"B", "B", "1"⟩, "function", "", [(.calledBy, "A/0")]⟩]
      (by decide +kernel),
    .ofBlocks "b"
      ["A/0 (A) @0x0", "  Type: function", "  Visibility: public"]
      [⟨⟨"A", "A", "0"⟩, "function", "public", []⟩]
      (by decide +kernel),
    .ofBlocks "c"
      ["A/0 (A) @0x0", "  Type: function", "  Visibility:", "  Calls: B/1",
        "B/1 (B) @0x1", "  Type: function", "  Visibility: public", "  Called by: A/0"]
      [⟨⟨"A", "A", "0"⟩, "function", "", [(.calls, "B/1")]⟩,
        ⟨⟨"B", "B", "1"⟩, "function", "public", [(.calledBy, "A/0")]⟩]
      (by decide +kernel)]

theorem consistent_namesakes : Consistent namesakes := by decide +kernel

theorem eq_of_length_le_one {α : Type} {items : List α} (single : items.length ≤ 1) {left right : α}
    (leftMember : left ∈ items) (rightMember : right ∈ items) : left = right := by
  match items with
  | [] => cases leftMember
  | [item] =>
      rw [List.mem_singleton.mp leftMember, List.mem_singleton.mp rightMember]
  | _ :: _ :: _ => simp at single

namespace Consistent

variable {units : List Listing} {unit : Listing} {block other : Block}

theorem compatible (consistent : Consistent units) : Compatible units where
  origins := consistent.origins
  symbols unit member := (consistent.balanced unit member).symbols
  typed unit member := (consistent.balanced unit member).typed
  coherent unit member := (consistent.balanced unit member).coherent
  agree := consistent.agree

theorem orderly (consistent : Consistent units) : Orderly (declarations units) :=
  consistent.compatible.orderly

theorem declares (consistent : Consistent units) (member : unit ∈ units)
    (listed : block ∈ unit.blocks) :
    Declares (declarations units) (block.key unit.origin) unit.origin block :=
  ⟨mem_declarations_iff.mpr ⟨unit, member, rfl, listed⟩,
    (consistent.balanced unit member).genuine block listed, rfl⟩

/-- A block that lists forward edges is a definition. -/
theorem defines (consistent : Consistent units) (member : unit ∈ units)
    (listed : block ∈ unit.blocks) {field : EdgeField} (forward : field.isForward = true)
    {token : String} (inBlock : token ∈ block.tokens field) :
    (unit.origin, block) ∈ definitions (declarations units) (block.key unit.origin) := by
  refine mem_definitions_iff.mpr ⟨consistent.declares member listed, ?_⟩
  cases external : block.isExternal with
  | false => rfl
  | true =>
      rw [(consistent.balanced unit member).external block listed external field forward] at inBlock
      cases inBlock

variable {table : Table}

/-- The table holds an edge that a unit lists at both of its ends. -/
theorem mem_edgesOf (consistent : Consistent units)
    (reflects : Reflects (declarations units) table) (member : unit ∈ units)
    (listed : block ∈ unit.blocks) (otherListed : other ∈ unit.blocks) {field : EdgeField}
    (inBlock : other.symbol ∈ block.tokens field) :
    block.symbol ∈ table.edgesOf (other.key unit.origin) field.inverse :=
  (reflects.edges _ _ _).mpr ⟨unit.origin, other, consistent.declares member otherListed,
    ((consistent.balanced unit member).inverse block listed other otherListed field).mp inBlock⟩

/-- The private key of a symbol of a unit is in the table only for a private block. -/
theorem contains_inOrigin (consistent : Consistent units)
    (reflects : Reflects (declarations units) table) {symbol : String} {origin : Origin}
    (unmarked : Key.isPrivate symbol = false)
    (present : table.contains (Key.inOrigin symbol origin) = true) :
    ∃ block, (origin, block) ∈ declarations units ∧ block.symbol = symbol ∧
      block.isExported = false ∧ ∃ field token, token ∈ block.tokens field := by
  obtain ⟨elsewhere, block, declares, lists⟩ := reflects.contains_iff.mp present
  have sound := consistent.orderly.sound _ declares.listed
  obtain ⟨hidden, rfl, rfl⟩ := sound.eq_of_inOrigin unmarked declares.keyed
  exact ⟨block, declares.listed, rfl, hidden, lists⟩

/-- In its own unit, a symbol of a block in the table denotes the key of the block. -/
theorem denotation_eq (consistent : Consistent units)
    (reflects : Reflects (declarations units) table) (member : unit ∈ units)
    (listed : block ∈ unit.blocks) (present : table.contains (block.key unit.origin) = true) :
    table.restoreOrigins.denotation block.symbol unit.origin = block.key unit.origin := by
  have unmarked := (Listing.header_of_block listed).2
  rw [denotation_of_unmarked table unmarked]
  cases exported : block.isExported with
  | false =>
      rw [Block.key_of_hidden exported] at present ⊢
      rw [if_pos present]
  | true =>
      rw [Block.key_of_exported exported, if_neg]
      intro shadowed
      obtain ⟨shadow, shadowListed, symbols, hidden, -⟩ :=
        consistent.contains_inOrigin reflects unmarked shadowed
      have own := mem_declarations_iff.mpr ⟨unit, member, rfl, listed⟩
      rw [consistent.orderly.eq_of_symbol shadowListed own symbols, exported] at hidden
      cases hidden

/-- Every edge that a unit lists is a target. -/
theorem mem_targets_of_listed (consistent : Consistent units)
    (reflects : Reflects (declarations units) table) {key target : Key} {field : EdgeField}
    (forward : field.isForward = true) (listed : Listed units key field target) :
    target ∈ table.restoreOrigins.targets key field ∧
      (Key.isPrivate key = true ∨ key ∈ table.edgesOf target field.inverse) := by
  obtain ⟨unit, member, block, blockListed, other, otherListed, rfl, inBlock, rfl⟩ := listed
  have back := consistent.mem_edgesOf reflects member blockListed otherListed inBlock
  have present := Table.contains_of_mem_edgesOf back
  have answered : block.isExported = true →
      block.key unit.origin ∈ table.edgesOf (other.key unit.origin) field.inverse := by
    intro exported
    rw [Block.key_of_exported exported]
    exact back
  have sound := consistent.orderly.sound _ (consistent.declares member blockListed).listed
  refine ⟨(reflects.mem_targets_iff consistent.orderly).mpr
    ⟨⟨unit.origin, block, consistent.declares member blockListed, other.symbol, inBlock,
      unit.origin, block, consistent.defines member blockListed forward inBlock,
      consistent.denotation_eq reflects member otherListed present⟩, present, fun several => ?_⟩,
    ?_⟩
  · apply answered
    cases exported : block.isExported with
    | true => rfl
    | false =>
        have marked : Key.isPrivate (block.key unit.origin) = true := by
          rw [sound.isPrivate_key, exported]
          rfl
        have single := length_definitions_of_private consistent.orderly marked
        omega
  · rw [sound.isPrivate_key]
    cases exported : block.isExported with
    | true => exact .inr (answered exported)
    | false => exact .inl rfl

/-! ### Keys with one definition -/

/-- A target of a key with at most one definition is an edge that the unit of the definition
lists. -/
theorem listed_of_mem_targets (consistent : Consistent units)
    (reflects : Reflects (declarations units) table) {key target : Key} {field : EdgeField}
    (forward : field.isForward = true)
    (single : (definitions (declarations units) key).length ≤ 1)
    (linked : target ∈ table.restoreOrigins.targets key field) :
    Listed units key field target := by
  obtain ⟨⟨origin, block, declares, token, inBlock, elsewhere, definer, defined, denotes⟩, -, -⟩ :=
    (reflects.mem_targets_iff consistent.orderly).mp linked
  obtain ⟨unit, member, rfl, listed⟩ := mem_declarations_iff.mp declares.listed
  have own := consistent.defines member listed forward inBlock
  rw [declares.keyed] at own
  obtain ⟨rfl, rfl⟩ : unit.origin = elsewhere ∧ block = definer :=
    Prod.mk.inj (eq_of_length_le_one single own defined)
  obtain ⟨other, otherListed, rfl⟩ :=
    (consistent.balanced unit member).closed block listed field token inBlock
  have present := Table.contains_of_mem_edgesOf
    (consistent.mem_edgesOf reflects member listed otherListed inBlock)
  rw [consistent.denotation_eq reflects member otherListed present] at denotes
  exact ⟨unit, member, block, listed, other, otherListed, declares.keyed, inBlock, denotes⟩

/-- Consistent units are read, and resolution gives a private key, or a public symbol with at most
one definition, exactly the edges that its units list; each target lists the key back. -/
theorem resolve_of_single (consistent : Consistent units) :
    ∃ table, readUnitsInto ∅ (units.map fun unit => (unit.origin, unit.lines)) = .ok table ∧
      ∀ key, Key.isPrivate key = true ∨ (definitions (declarations units) key).length ≤ 1 →
        ∀ field, field.isForward = true → ∀ target,
          (target ∈ table.resolve.edgesOf key field ↔ Listed units key field target) ∧
            (Listed units key field target →
              key ∈ table.resolve.edgesOf target field.inverse) := by
  obtain ⟨table, read, reflects⟩ :=
    Reflects.empty.readUnits (by simpa using consistent.orderly)
  rw [List.nil_append] at reflects
  refine ⟨table, read, fun key exempt field forward target => ?_⟩
  have single : (definitions (declarations units) key).length ≤ 1 :=
    exempt.elim (length_definitions_of_private consistent.orderly) id
  have stays : Listed units key field target → target ∈ table.resolve.edgesOf key field ∧
      key ∈ table.resolve.edgesOf target field.inverse := by
    intro listed
    obtain ⟨linked, answered⟩ := consistent.mem_targets_of_listed reflects forward listed
    exact Table.mem_resolve_of_answered forward linked answered
  refine ⟨⟨fun edge => ?_, fun listed => (stays listed).1⟩, fun listed => (stays listed).2⟩
  exact consistent.listed_of_mem_targets reflects forward single
    (Table.mem_targets_of_resolve forward edge)

theorem resolve_of_single_namesakes :
    ∃ table, readUnitsInto ∅ (namesakes.map fun unit => (unit.origin, unit.lines)) = .ok table ∧
      "B" ∈ table.resolve.edgesOf "A@c" .calls ∧ "A@c" ∈ table.resolve.edgesOf "B" .calledBy ∧
        "B@a" ∉ table.resolve.edgesOf "A@c" .calls := by
  obtain ⟨table, read, edges⟩ := resolve_of_single consistent_namesakes
  have exempt : Key.isPrivate "A@c" = true ∨
      (definitions (declarations namesakes) "A@c").length ≤ 1 := .inl (by decide +kernel)
  have listed : Listed namesakes "A@c" .calls "B" := by decide +kernel
  have unlisted : ¬ Listed namesakes "A@c" .calls "B@a" := by decide +kernel
  have called := edges "A@c" exempt .calls rfl "B"
  refine ⟨table, read, called.1.mpr listed, called.2 listed, fun edge => ?_⟩
  exact unlisted ((edges "A@c" exempt .calls rfl "B@a").1.mp edge)

/-! ### Symbols with several definitions -/

variable {symbol target : Key} {field : EdgeField}

/-- An entry of the table for a public target comes from a unit that lists the edge. -/
theorem exists_of_mem_edgesOf (consistent : Consistent units)
    (reflects : Reflects (declarations units) table)
    (back : symbol ∈ table.edgesOf target field.inverse) :
    ∃ unit ∈ units, ∃ block ∈ unit.blocks, ∃ other ∈ unit.blocks,
      block.symbol = symbol ∧ other.symbol ∈ block.tokens field ∧
        other.key unit.origin = target := by
  obtain ⟨origin, other, declares, inOther⟩ := (reflects.edges _ _ _).mp back
  obtain ⟨unit, member, rfl, otherListed⟩ := mem_declarations_iff.mp declares.listed
  obtain ⟨block, listed, rfl⟩ :=
    (consistent.balanced unit member).closed other otherListed field.inverse symbol inOther
  exact ⟨unit, member, block, listed, other, otherListed, rfl,
    ((consistent.balanced unit member).inverse block listed other otherListed field).mpr inOther,
    declares.keyed⟩

/-- A symbol with several definitions is public, and so are its blocks. -/
theorem isExported_of_several (consistent : Consistent units)
    (several : 2 ≤ (definitions (declarations units) symbol).length) {origin : Origin}
    (declares : Declares (declarations units) symbol origin block) :
    block.isExported = true ∧ block.symbol = symbol := by
  have sound := consistent.orderly.sound _ declares.listed
  have unmarked : Key.isPrivate symbol = false := by
    rw [Bool.eq_false_iff]
    intro marked
    have single := length_definitions_of_private consistent.orderly marked
    omega
  exact sound.eq_of_unmarked unmarked declares.keyed

/-- A target that only a private symbol of the same name answers for is public. -/
theorem isExported_of_mistaken (consistent : Consistent units)
    (several : 2 ≤ (definitions (declarations units) symbol).length) {definer named source : Block}
    {elsewhere : Origin} (defined : (elsewhere, definer) ∈ definitions (declarations units) symbol)
    (unmarked : Key.isPrivate named.symbol = false)
    (denotes : table.restoreOrigins.denotation named.symbol elsewhere = other.key unit.origin)
    (member : unit ∈ units) (sourceListed : source ∈ unit.blocks)
    (otherListed : other ∈ unit.blocks) (sourceSymbol : source.symbol = symbol)
    (hidden : source.isExported = false) :
    table.contains (Key.inOrigin named.symbol elsewhere) = false ∧ other.isExported = true ∧
      other.symbol = named.symbol := by
  have sourceDeclares := consistent.declares member sourceListed
  have otherSound := consistent.orderly.sound _ (consistent.declares member otherListed).listed
  obtain ⟨definerDeclares, -⟩ := mem_definitions_iff.mp defined
  obtain ⟨exported, definerSymbol⟩ := consistent.isExported_of_several several definerDeclares
  rw [denotation_of_unmarked table unmarked] at denotes
  split at denotes
  · -- The unit of the definition would have two blocks of the symbol.
    obtain ⟨-, -, rfl⟩ := otherSound.eq_of_inOrigin unmarked denotes.symm
    have same := consistent.orderly.eq_of_symbol definerDeclares.listed sourceDeclares.listed
      (definerSymbol.trans sourceSymbol.symm)
    rw [same, hidden] at exported
    cases exported
  · next absent =>
      exact ⟨by simpa using absent, otherSound.eq_of_unmarked unmarked denotes.symm⟩

/-- A target of a symbol with several definitions is listed or invented. -/
theorem listed_or_invented (consistent : Consistent units)
    (reflects : Reflects (declarations units) table)
    (several : 2 ≤ (definitions (declarations units) symbol).length)
    (linked : target ∈ table.restoreOrigins.targets symbol field) :
    Listed units symbol field target ∨ Invented units symbol field target := by
  obtain ⟨⟨origin, block, declares, token, inBlock, elsewhere, definer, defined, denotes⟩, -,
    answers⟩ := (reflects.mem_targets_iff consistent.orderly).mp linked
  obtain ⟨unit, member, rfl, listed⟩ := mem_declarations_iff.mp declares.listed
  obtain ⟨named, namedListed, rfl⟩ :=
    (consistent.balanced unit member).closed block listed field token inBlock
  have unmarked := (Listing.header_of_block namedListed).2
  obtain ⟨caller, callerMember, source, sourceListed, other, otherListed, sourceSymbol, inSource,
    rfl⟩ := consistent.exists_of_mem_edgesOf reflects (answers several)
  by_cases already : Listed units symbol field (other.key caller.origin)
  · exact .inl already
  · have hidden : source.isExported = false := by
      cases exported : source.isExported with
      | false => rfl
      | true =>
          refine absurd ⟨caller, callerMember, source, sourceListed, other, otherListed, ?_,
            inSource, rfl⟩ already
          rw [Block.key_of_exported exported, sourceSymbol]
    obtain ⟨absent, otherExported, same⟩ := consistent.isExported_of_mistaken several
      defined unmarked denotes callerMember sourceListed otherListed sourceSymbol hidden
    rw [Block.key_of_exported otherExported] at already ⊢
    refine .inr ⟨?_, ⟨(elsewhere, definer), defined, ?_⟩, ?_, already⟩
    · exact ⟨unit, member, block, listed, declares.keyed, same ▸ inBlock⟩
    · rintro ⟨_, shadow⟩ shadowListed rfl symbols shadowHidden list
      rw [List.eq_nil_iff_forall_not_mem]
      intro token inShadow
      obtain ⟨home, homeMember, rfl, inHome⟩ := mem_declarations_iff.mp shadowListed
      have present : table.contains (shadow.key home.origin) = true :=
        reflects.contains_iff.mpr ⟨home.origin, shadow, consistent.declares homeMember inHome, list,
          token, inShadow⟩
      rw [Block.key_of_hidden shadowHidden, symbols, same, absent] at present
      cases present
    · exact ⟨caller, callerMember, source, sourceListed, other, otherListed, sourceSymbol, hidden,
        inSource, rfl, otherExported⟩

/-- Every invented edge is a target. -/
theorem mem_targets_of_invented (consistent : Consistent units)
    (reflects : Reflects (declarations units) table)
    (invented : Invented units symbol field target) :
    target ∈ table.restoreOrigins.targets symbol field ∧
      symbol ∈ table.edgesOf target field.inverse := by
  obtain ⟨unit, member, block, listed, keyed, inBlock⟩ := invented.pooled
  obtain ⟨⟨elsewhere, definer⟩, defined, unshadowed⟩ := invented.unshadowed
  obtain ⟨caller, callerMember, source, sourceListed, other, otherListed, rfl, -, inSource, rfl,
    exported⟩ := invented.mistaken
  have unmarked := (Listing.header_of_block otherListed).2
  have back := consistent.mem_edgesOf reflects callerMember sourceListed otherListed inSource
  rw [Block.key_of_exported exported] at back
  refine ⟨(reflects.mem_targets_iff consistent.orderly).mpr
    ⟨⟨unit.origin, block, keyed ▸ consistent.declares member listed, other.symbol, inBlock,
      elsewhere, definer, defined, ?_⟩, Table.contains_of_mem_edgesOf back, fun _ => back⟩, back⟩
  rw [denotation_of_unmarked table unmarked, if_neg]
  intro shadowed
  obtain ⟨shadow, shadowListed, symbols, hidden, list, token, inShadow⟩ :=
    consistent.contains_inOrigin reflects unmarked shadowed
  rw [unshadowed _ shadowListed rfl symbols hidden] at inShadow
  cases inShadow

/-- Consistent units are read, and resolution gives a symbol with several definitions the edges
that its units list and the invented ones, so exactly the listed ones when none is invented. -/
theorem resolve_of_several (consistent : Consistent units) :
    ∃ table, readUnitsInto ∅ (units.map fun unit => (unit.origin, unit.lines)) = .ok table ∧
      ∀ symbol, 2 ≤ (definitions (declarations units) symbol).length →
        ∀ field, field.isForward = true →
          (∀ target, target ∈ table.resolve.edgesOf symbol field ↔
            Listed units symbol field target ∨ Invented units symbol field target) ∧
          ((∀ target, target ∈ table.resolve.edgesOf symbol field ↔
              Listed units symbol field target) ↔
            ∀ target, ¬ Invented units symbol field target) := by
  obtain ⟨table, read, reflects⟩ :=
    Reflects.empty.readUnits (by simpa using consistent.orderly)
  rw [List.nil_append] at reflects
  refine ⟨table, read, fun symbol several field forward => ?_⟩
  have edges : ∀ target, target ∈ table.resolve.edgesOf symbol field ↔
      Listed units symbol field target ∨ Invented units symbol field target := by
    intro target
    constructor
    · intro edge
      exact consistent.listed_or_invented reflects several
        (Table.mem_targets_of_resolve forward edge)
    · rintro (listed | invented)
      · obtain ⟨linked, answered⟩ := consistent.mem_targets_of_listed reflects forward listed
        exact (Table.mem_resolve_of_answered forward linked answered).1
      · obtain ⟨linked, answered⟩ := consistent.mem_targets_of_invented reflects invented
        exact (Table.mem_resolve_of_answered forward linked (.inr answered)).1
  refine ⟨edges, fun listedOnly target invented => ?_, fun noneInvented target => ?_⟩
  · exact invented.unlisted ((listedOnly target).mp ((edges target).mpr (.inr invented)))
  · rw [edges, or_iff_left (noneInvented target)]

theorem resolve_of_several_namesakes :
    ∃ table, readUnitsInto ∅ (namesakes.map fun unit => (unit.origin, unit.lines)) = .ok table ∧
      "B@a" ∈ table.resolve.edgesOf "A" .calls ∧ "B" ∈ table.resolve.edgesOf "A" .calls ∧
        ¬ Listed namesakes "A" .calls "B" := by
  obtain ⟨table, read, edges⟩ := resolve_of_several consistent_namesakes
  have several : 2 ≤ (definitions (declarations namesakes) "A").length := by decide +kernel
  have calls := (edges "A" several .calls rfl).1
  have listed : Listed namesakes "A" .calls "B@a" := by decide +kernel
  have invented : Invented namesakes "A" .calls "B" := by decide +kernel
  exact ⟨table, read, (calls "B@a").mpr (.inl listed), (calls "B").mpr (.inr invented),
    invented.unlisted⟩

end Consistent

end Dump

end CallGraph
