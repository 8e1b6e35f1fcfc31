import CallGraph.Proofs.Reading.Lines
import CallGraph.Proofs.Reading.Moves

/-!
# Blocks

A block is a header, a type, a visibility and then lists of edges.  Read into a table that does not
know the symbol of the unit yet, a block changes one record and nothing else: the one of its key,
which gets the edges of the block and, unless the symbol is defined elsewhere, the origin.  An
artificial block changes nothing.
-/

namespace CallGraph

/-! ## Tables that differ in one record -/

namespace Table

/-- A table in which one key was given a record. -/
structure Updated (table : Table) (key : Key) (record : Record) (after : Table) : Prop where
  /-- The key has the record, any other key what it had. -/
  records : ∀ own, after.get? own = if own = key then some record else table.get? own
  /-- The origins of dropped symbols are the same. -/
  detached : after.detached = table.detached

namespace Updated

variable {table after final : Table} {key target : Key} {record : Record}

theorem contains (updated : Updated table key record after) : after.contains key = true :=
  (after.contains_iff key).mpr ⟨record, by rw [updated.records, if_pos rfl]⟩

theorem modify (updated : Updated table key record after) (change : Record → Record) :
    Updated table key (change record) (after.modify key change) where
  records own := by
    rw [get?_modify, updated.records]
    split <;> rfl
  detached := updated.detached

/-- Opening a block gives its key a record. -/
theorem opened (absent : table.get? key = none) (change : Record → Record) :
    Updated table key (change {}) ((table.ensure key).modify key change) where
  records own := by
    rw [get?_modify, get?_ensure, absent]
    split <;> rfl
  detached := by
    change (table.ensure key).detached = table.detached
    unfold ensure
    split <;> rfl

/-- Forgetting a new key restores the table. -/
theorem get?_erase (updated : Updated table key record after) (absent : table.get? key = none)
    (own : Key) : (after.erase key).get? own = table.get? own := by
  rw [Table.get?_erase, updated.records]
  split
  · next same => rw [same, absent]
  · rfl

/-- A new record moves to a key without record. -/
theorem moved (updated : Updated table key record after) (absent : table.get? key = none)
    (different : target ≠ key) (free : table.get? target = none) :
    ∃ final, merge target key after = .ok () final ∧ Updated table target record final := by
  refine ⟨(after.erase key).put target record, ?_, ?_, ?_⟩
  · refine merge_ok_iff.mpr ⟨record, by rw [updated.records, if_pos rfl], .inr ⟨different, .inl ?_⟩⟩
    exact ⟨by rw [updated.records, if_neg different, free], rfl⟩
  · intro own
    rw [get?_put, updated.get?_erase absent]
  · exact updated.detached

/-- A new record is absorbed by one that agrees with it. -/
theorem absorbed (updated : Updated table key record after) (absent : table.get? key = none)
    {stored : Record} (found : table.get? target = some stored) (kinds : stored.kind = record.kind)
    (visibilities : stored.visibility = record.visibility) :
    ∃ final, merge target key after = .ok () final ∧
      Updated table target (stored.absorb record) final := by
  have different : target ≠ key := by
    rintro rfl
    rw [found] at absent
    cases absent
  have present : after.get? target = some stored := by
    rw [updated.records, if_neg different, found]
  refine ⟨(after.modify target (·.absorb record)).erase key, ?_, ?_, ?_⟩
  · refine merge_ok_iff.mpr ⟨record, by rw [updated.records, if_pos rfl], .inr ⟨different, .inr ?_⟩⟩
    exact ⟨stored, present, kinds, visibilities, rfl⟩
  · intro own
    rw [Table.get?_erase, get?_modify, updated.records]
    by_cases isTarget : own = target
    · subst isTarget
      simp [different, found]
    · by_cases isSource : own = key
      · subst isSource
        simp [isTarget, absent]
      · simp [isTarget, isSource]
  · exact updated.detached

end Updated

end Table

/-- A record without edges brings its origins only. -/
theorem Record.absorb_of_no_edges (record : Record) {other : Record}
    (bare : ∀ field, other.edges field = []) :
    record.absorb other = record.addOrigins other.origins := by
  have unchanged : ∀ (fields : List EdgeField) (joined : Record),
      fields.foldl (fun joined field => joined.addEdges field (other.edges field)) joined =
        joined := by
    intro fields
    induction fields with
    | nil => exact fun _ => rfl
    | cons field fields induction =>
        intro joined
        rw [List.foldl_cons, induction, bare, addEdges, union, withEdges_edges]
  exact unchanged EdgeField.all _

/-! ## What a block says -/

namespace Dump

/-- A block of a unit, as its lines say it. -/
structure Block where
  /-- The symbol and its name. -/
  header : Header
  /-- What the symbol denotes, as it is written. -/
  type : String
  /-- Who sees the symbol, as it is written. -/
  visibility : String
  /-- The lists of edges as they are written, in their order; a field may have several. -/
  lists : List (EdgeField × String)

namespace Block

/-- The symbol of a block. -/
def symbol (block : Block) : String := block.header.symbol

/-- What the symbol denotes. -/
def kind (block : Block) : Option Kind := Reader.kindOf? block.type

/-- Whether every unit sees the symbol. -/
def isExported (block : Block) : Bool := (Flags.scan block.visibility).exported

/-- Whether the symbol is defined in another unit. -/
def isExternal (block : Block) : Bool := (Flags.scan block.visibility).external

/-- Whether the compiler made the symbol up. -/
def isArtificial (block : Block) : Bool := (Flags.scan block.visibility).artificial

/-- The symbols that a block lists in a field. -/
def tokens (block : Block) (field : EdgeField) : List String :=
  (block.lists.filter (·.1 = field)).flatMap fun list => edgeTokens list.2

/-- The lines of a block. -/
def lines (block : Block) : List Line :=
  .header block.header :: .field .type block.type :: .field .visibility block.visibility ::
    block.lists.map fun list => .field (.edges list.1) list.2

/-- The key of a block of a unit: the symbol itself if every unit sees it. -/
def key (block : Block) (origin : Origin) : Key :=
  if block.isExported then block.symbol else Key.inOrigin block.symbol origin

/-- The origins that a block brings: none if the symbol is defined elsewhere. -/
def origins (block : Block) (origin : Origin) : List Origin :=
  if block.isExternal then [] else [origin]

/-- Who sees the symbol. -/
def audience (block : Block) : Visibility :=
  if block.isExported then .exported else .fileLocal

/-- The record of a block that is the first of its key, without edges. -/
def declared (block : Block) (origin : Origin) : Record where
  name := block.header.name
  kind := block.kind
  visibility := some block.audience
  origins := block.origins origin

/-- The record of a key after a block of that key. -/
def extend (block : Block) (origin : Origin) (stored : Option Record) : Record :=
  block.lists.foldl (fun record list => record.addEdges list.1 (edgeTokens list.2))
    (stored.elim (block.declared origin) (·.addOrigins (block.origins origin)))

/-- What is asked of a block: a symbol without the separator, a type, and a visibility that does
not contradict itself. -/
structure Sound (block : Block) : Prop where
  /-- There is a symbol. -/
  named : block.symbol ≠ ""
  /-- It is not marked as a private key. -/
  unmarked : Key.isPrivate block.symbol = false
  /-- The type is that of a function or of a variable. -/
  typed : block.kind.isSome = true
  /-- No words of the visibility contradict each other. -/
  coherent : Flags.read block.visibility = .ok (Flags.scan block.visibility)

variable {block : Block} {origin : Origin}

theorem Sound.isArtificial_eq (sound : block.Sound) (exported : block.isExported = true) :
    block.isArtificial = false := by
  have coherent := sound.coherent
  unfold isExported at exported
  unfold isArtificial
  cases artificial : (Flags.scan block.visibility).artificial with
  | false => rfl
  | true => simp [Flags.read, exported, artificial] at coherent

theorem Sound.isExternal_eq (sound : block.Sound) (hidden : block.isExported = false) :
    block.isExternal = false := by
  have coherent := sound.coherent
  unfold isExported at hidden
  unfold isExternal
  cases external : (Flags.scan block.visibility).external with
  | false => rfl
  | true => simp [Flags.read, hidden, external] at coherent

theorem key_of_exported (exported : block.isExported = true) (origin : Origin) :
    block.key origin = block.symbol := by
  rw [key, if_pos exported]

theorem key_of_hidden (hidden : block.isExported = false) (origin : Origin) :
    block.key origin = Key.inOrigin block.symbol origin := by
  rw [key, if_neg (by simp [hidden])]

theorem Sound.isPrivate_key (sound : block.Sound) (origin : Origin) :
    Key.isPrivate (block.key origin) = !block.isExported := by
  cases exported : block.isExported with
  | true =>
      rw [key_of_exported exported, sound.unmarked]
      rfl
  | false =>
      rw [key_of_hidden exported, Key.isPrivate_inOrigin]
      rfl

/-- A private key is that of a private block of its origin. -/
theorem Sound.eq_of_inOrigin (sound : block.Sound) {symbol : String} {elsewhere : Origin}
    (unmarked : Key.isPrivate symbol = false)
    (keyed : block.key origin = Key.inOrigin symbol elsewhere) :
    block.isExported = false ∧ block.symbol = symbol ∧ origin = elsewhere := by
  have hidden : block.isExported = false := by
    have marked := Key.isPrivate_inOrigin symbol elsewhere
    rw [← keyed, sound.isPrivate_key] at marked
    simpa using marked
  rw [key_of_hidden hidden] at keyed
  exact ⟨hidden, Key.inOrigin_injective sound.unmarked unmarked keyed⟩

/-- A bare symbol is the key of public blocks only. -/
theorem Sound.eq_of_unmarked (sound : block.Sound) {key : Key}
    (unmarked : Key.isPrivate key = false) (keyed : block.key origin = key) :
    block.isExported = true ∧ block.symbol = key := by
  have exported : block.isExported = true := by
    rw [← keyed, sound.isPrivate_key] at unmarked
    simpa using unmarked
  exact ⟨exported, key_of_exported exported origin ▸ keyed⟩

theorem Sound.key_ne_empty (sound : block.Sound) (origin : Origin) : block.key origin ≠ "" := by
  cases exported : block.isExported with
  | true => exact key_of_exported exported origin ▸ sound.named
  | false =>
      rw [key_of_hidden exported]
      exact (Key.ne_inOrigin (by decide) _ _).symm

/-! ## The record after a block -/

theorem edges_foldl_lists (lists : List (EdgeField × String)) (record : Record)
    (field : EdgeField) :
    (lists.foldl (fun record list => record.addEdges list.1 (edgeTokens list.2)) record).edges
        field =
      union (record.edges field)
        ((lists.filter (·.1 = field)).flatMap fun list => edgeTokens list.2) := by
  induction lists generalizing record with
  | nil => rfl
  | cons list lists induction =>
      rw [List.foldl_cons, induction, Record.edges_addEdges]
      by_cases same : field = list.1
      · simp [same, union_append]
      · simp [same, Ne.symm same]

theorem edges_declared (block : Block) (origin : Origin) (field : EdgeField) :
    (block.declared origin).edges field = [] := by
  cases field <;> rfl

/-- The first block of a key lists what its record lists. -/
theorem edges_extend_none (block : Block) (origin : Origin) (field : EdgeField) :
    (block.extend origin none).edges field = distinctMembers (block.tokens field) := by
  rw [extend, edges_foldl_lists, Option.elim_none, edges_declared]
  rfl

/-- A block adds the symbols that it lists. -/
theorem mem_edges_extend {stored : Option Record} {field : EdgeField} {token : String} :
    token ∈ (block.extend origin stored).edges field ↔
      (∃ record, stored = some record ∧ token ∈ record.edges field) ∨
        token ∈ block.tokens field := by
  rw [extend, edges_foldl_lists, mem_union, tokens]
  cases stored with
  | none => simp [edges_declared]
  | some record => simp

theorem body_extend (stored : Option Record) :
    (block.extend origin stored).body =
      (stored.elim (block.declared origin) (·.addOrigins (block.origins origin))).body := by
  unfold extend
  generalize stored.elim (block.declared origin) (·.addOrigins (block.origins origin)) = record
  induction block.lists generalizing record with
  | nil => rfl
  | cons list lists induction => rw [List.foldl_cons, induction, Record.body_addEdges]

theorem origins_extend (stored : Option Record) :
    (block.extend origin stored).origins =
      stored.elim (block.origins origin) fun record =>
        union record.origins (block.origins origin) := by
  rw [Record.origins_eq_of_body (body_extend stored)]
  cases stored <;> rfl

/-- After a block the record is of its kind, if it was before. -/
theorem kind_extend {stored : Option Record}
    (agrees : ∀ record, stored = some record → record.kind = block.kind) :
    (block.extend origin stored).kind = block.kind := by
  rw [Record.kind_eq_of_body (body_extend stored)]
  cases stored with
  | none => rfl
  | some record => exact agrees record rfl

theorem visibility_extend {stored : Option Record}
    (agrees : ∀ record, stored = some record → record.visibility = some block.audience) :
    (block.extend origin stored).visibility = some block.audience := by
  rw [Record.visibility_eq_of_body (body_extend stored)]
  cases stored with
  | none => rfl
  | some record => exact agrees record rfl

theorem nodup_origins_extend {stored : Option Record}
    (distinct : ∀ record, stored = some record → record.origins.Nodup) :
    (block.extend origin stored).origins.Nodup := by
  rw [origins_extend]
  cases stored with
  | none =>
      unfold origins
      cases block.isExternal <;> simp
  | some record => exact nodup_union (distinct record rfl) _

/-- The tables before and after a block that is not artificial. -/
def Enters (block : Block) (origin : Origin) (table after : Table) : Prop :=
  table.Updated (block.key origin) (block.extend origin (table.get? (block.key origin))) after

/-! ## The moves of a block -/

/-- The lists of a block go to the current record, one after another. -/
theorem moves_lists {table after : Table} {key : Key} {record : Record}
    (updated : table.Updated key record after) (lists : List (EdgeField × String)) :
    ∃ final,
      Moves origin (lists.map fun list => .field (.edges list.1) list.2) after key final key ∧
      table.Updated key
        (lists.foldl (fun record list => record.addEdges list.1 (edgeTokens list.2)) record)
        final := by
  induction lists generalizing after record with
  | nil => exact ⟨after, .nil after key, updated⟩
  | cons list lists induction =>
      obtain ⟨final, moves, reached⟩ :=
        induction (updated.modify fun record => record.addEdges list.1 (edgeTokens list.2))
      exact ⟨final, .cons (.edges list.1 list.2 updated.contains) moves, reached⟩

/-- A header opens a record under the private key of a symbol that the unit did not have, and the
type is put in it. -/
theorem Sound.moves_head (sound : block.Sound) {table closed : Table} {current : Key}
    (closing : closedTable table current block.symbol (Key.inOrigin block.symbol origin) = closed)
    (absent : closed.get? (Key.inOrigin block.symbol origin) = none) :
    ∃ after, Moves origin [.header block.header, .field .type block.type] table current after
        (Key.inOrigin block.symbol origin) ∧
      closed.Updated (Key.inOrigin block.symbol origin)
        { name := block.header.name, kind := block.kind, origins := [origin] } after := by
  obtain ⟨kind, typed⟩ := Option.isSome_iff_exists.mp sound.typed
  have opened : closed.Updated (Key.inOrigin block.symbol origin)
      { name := block.header.name, origins := [origin] }
      ((closed.ensure (Key.inOrigin block.symbol origin)).modify
        (Key.inOrigin block.symbol origin) (openedRecord block.header.name origin)) :=
    Table.Updated.opened absent (openedRecord block.header.name origin)
  have openedRecord := opened.records (Key.inOrigin block.symbol origin)
  rw [if_pos rfl] at openedRecord
  subst closing
  refine ⟨_, .cons (.header block.header ?_)
    (.cons (.type block.type kind opened.contains typed ?_) (.nil _ _)), ?_⟩
  · intro stored found
    cases absent.symm.trans found
  · intro stored found
    cases (congrArg (·.bind Record.kind) openedRecord).symm.trans found
  · rw [typed]
    exact opened.modify fun record => { record with kind := some kind }

/-- The visibility of a public symbol brings its new record to the bare symbol. -/
theorem Sound.move_exported (sound : block.Sound) (exported : block.isExported = true)
    {table after : Table}
    (updated : table.Updated (Key.inOrigin block.symbol origin)
      { name := block.header.name, kind := block.kind, origins := [origin] } after)
    (absent : table.get? (Key.inOrigin block.symbol origin) = none)
    (agrees : ∀ stored, table.get? (block.key origin) = some stored →
      stored.kind = block.kind ∧ stored.visibility = some block.audience) :
    ∃ final, Move origin after (Key.inOrigin block.symbol origin)
        (.field .visibility block.visibility) final (block.key origin) ∧
      table.Updated (block.key origin)
        ((table.get? (block.key origin)).elim (block.declared origin)
          (·.addOrigins (block.origins origin))) final := by
  have bare : Key.bare (Key.inOrigin block.symbol origin) = block.symbol :=
    Key.bare_inOrigin sound.unmarked origin
  have publishes : publishedRecord (Flags.scan block.visibility).external
      { name := block.header.name, kind := block.kind, origins := [origin] } =
        block.declared origin := by
    simp only [publishedRecord, declared, audience, exported, if_true]
    rfl
  have published := updated.modify (publishedRecord (Flags.scan block.visibility).external)
  rw [publishes] at published
  rw [key_of_exported exported] at agrees ⊢
  have merges : ∃ final, Table.merge block.symbol (Key.inOrigin block.symbol origin)
        (after.modify (Key.inOrigin block.symbol origin)
          (publishedRecord (Flags.scan block.visibility).external)) = .ok () final ∧
      table.Updated block.symbol
        ((table.get? block.symbol).elim (block.declared origin)
          (·.addOrigins (block.origins origin))) final := by
    cases found : table.get? block.symbol with
    | none =>
        exact published.moved absent (Key.ne_inOrigin sound.unmarked _ _) found
    | some stored =>
        obtain ⟨kinds, visibilities⟩ := agrees stored found
        obtain ⟨final, merged, reached⟩ := published.absorbed absent found kinds visibilities
        rw [stored.absorb_of_no_edges (fun field => by cases field <;> rfl)] at reached
        exact ⟨final, merged, reached⟩
  obtain ⟨final, merged, reached⟩ := merges
  have move := @Move.exported origin after (Key.inOrigin block.symbol origin) block.visibility
    (Flags.scan block.visibility) final updated.contains sound.coherent exported
    (by rw [bare]; exact merged)
  rw [bare] at move
  exact ⟨final, move, reached⟩

/-- The visibility of a private symbol stays with its new record. -/
theorem Sound.move_fileLocal (sound : block.Sound) (hidden : block.isExported = false)
    (genuine : block.isArtificial = false) {table after : Table}
    (updated : table.Updated (Key.inOrigin block.symbol origin)
      { name := block.header.name, kind := block.kind, origins := [origin] } after)
    (absent : table.get? (Key.inOrigin block.symbol origin) = none) :
    ∃ final, Move origin after (Key.inOrigin block.symbol origin)
        (.field .visibility block.visibility) final (block.key origin) ∧
      table.Updated (block.key origin)
        ((table.get? (block.key origin)).elim (block.declared origin)
          (·.addOrigins (block.origins origin))) final := by
  have unseen : (after.get? (Key.inOrigin block.symbol origin)).bind Record.visibility = none := by
    rw [updated.records, if_pos rfl]
    rfl
  rw [key_of_hidden hidden, absent]
  refine ⟨_, .fileLocal block.visibility _ updated.contains sound.coherent hidden ?_ ?_, ?_⟩
  · intro artificial
    cases genuine.symm.trans artificial
  · rw [unseen]
    exact nofun
  · have declares : block.declared origin =
        { name := block.header.name, kind := block.kind, visibility := some .fileLocal,
          origins := [origin] } := by
      simp [declared, audience, origins, hidden, sound.isExternal_eq hidden]
    rw [Option.elim_none, declares]
    exact updated.modify fun record => { record with visibility := some .fileLocal }

/-- A block changes the record of its key and nothing else. -/
theorem Sound.moves (sound : block.Sound) (genuine : block.isArtificial = false)
    {table closed : Table} {current : Key}
    (closing : closedTable table current block.symbol (Key.inOrigin block.symbol origin) = closed)
    (absent : closed.get? (Key.inOrigin block.symbol origin) = none)
    (agrees : ∀ stored, closed.get? (block.key origin) = some stored →
      stored.kind = block.kind ∧ stored.visibility = some block.audience) :
    ∃ after, Moves origin block.lines table current after (block.key origin) ∧
      block.Enters origin closed after := by
  obtain ⟨opened, head, atPrivateKey⟩ := sound.moves_head closing absent
  have seen : ∃ middle, Move origin opened (Key.inOrigin block.symbol origin)
        (.field .visibility block.visibility) middle (block.key origin) ∧
      closed.Updated (block.key origin)
        ((closed.get? (block.key origin)).elim (block.declared origin)
          (·.addOrigins (block.origins origin))) middle := by
    cases exported : block.isExported with
    | true => exact sound.move_exported exported atPrivateKey absent agrees
    | false => exact sound.move_fileLocal exported genuine atPrivateKey absent
  obtain ⟨middle, visibility, atKey⟩ := seen
  obtain ⟨after, lists, extended⟩ := @moves_lists origin _ _ _ _ atKey block.lists
  exact ⟨after, head.append (.cons visibility lists), extended⟩

/-- An artificial block leaves the table as it was. -/
theorem Sound.moves_artificial (sound : block.Sound) (artificial : block.isArtificial = true)
    {table closed : Table} {current : Key}
    (closing : closedTable table current block.symbol (Key.inOrigin block.symbol origin) = closed)
    (absent : closed.get? (Key.inOrigin block.symbol origin) = none) :
    ∃ after, Moves origin block.lines table current after (block.key origin) ∧
      (∀ own, after.get? own = closed.get? own) ∧ after.detached = closed.detached := by
  have hidden : block.isExported = false := by
    cases exported : block.isExported with
    | false => rfl
    | true => cases (sound.isArtificial_eq exported).symm.trans artificial
  obtain ⟨opened, head, updated⟩ := sound.moves_head closing absent
  have unseen : (opened.get? (Key.inOrigin block.symbol origin)).bind Record.visibility = none := by
    rw [updated.records, if_pos rfl]
    rfl
  have restored := updated.get?_erase absent
  have gone : (opened.erase (Key.inOrigin block.symbol origin)).contains
      (Key.inOrigin block.symbol origin) = false := by
    rw [Bool.eq_false_iff, ne_eq, Table.contains_iff, restored, absent]
    simp
  rw [key_of_hidden hidden]
  refine ⟨opened.erase (Key.inOrigin block.symbol origin),
    head.append (.cons (.artificial block.visibility _ updated.contains sound.coherent hidden
      artificial unseen) ?_), restored, updated.detached⟩
  induction block.lists with
  | nil => exact .nil _ _
  | cons list lists induction => exact .cons (.stray (.edges list.1) list.2 gone) induction

end Block

end Dump

end CallGraph
