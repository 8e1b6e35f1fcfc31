import CallGraph.Proofs.TableText.Grammar
import CallGraph.Proofs.TableText.RoundTrip

/-!
# Reading exactly the grammar

A table is read from a text iff the lines that count are blocks with different keys, each of which
gives a record; the table then has these keys in this order, with these records.  Line by line, the
lines that were read so far are blocks iff nothing was found wrong, and what is known of each block
is what its lines say: this is carried along the text.  What a block lacks, and which words stand
for no type or visibility, is seen only in the end.
-/

namespace CallGraph

open Text TableText

/-! ## A block and its lines -/

namespace Block

/-- The text that is kept of the value of a field: an empty visibility is replaced by a word. -/
def scalarText (field : ScalarField) (value : String) : String :=
  if field = .visibility ∧ (trim value).isEmpty then Visibility.fileLocal.label else trim value

/-- A block holds the value of a field. -/
def Took (block : Block) (value : String) : BlockField → Prop
  | .scalar field => block.scalar? field = some (scalarText field value)
  | .items list => ∃ items, SpellsItems value items ∧ block.list? list = some items

/-- A block holds what some lines say, and nothing else. -/
structure Reflects (block : Block) (fields : List FieldLine) : Prop where
  /-- It holds the value of each line. -/
  present : ∀ line ∈ fields, block.Took line.value line.field
  /-- It has no other field. -/
  absent : ∀ field, field ∉ fields.map FieldLine.field → block.has field = false

variable {block : Block}

theorem Reflects.fresh (line : Nat) : Reflects { line } [] where
  present _ member := by cases member
  absent field _ := by cases field <;> rfl

theorem Reflects.putScalar {fields : List FieldLine} (reflects : block.Reflects fields)
    {line : FieldLine} {field : ScalarField} (same : line.field = .scalar field)
    (fresh : block.has line.field = false) :
    (block.putScalar field (scalarText field line.value)).Reflects (fields ++ [line]) where
  present other member := by
    rw [same, has_scalar_eq_false_iff] at fresh
    rcases List.mem_append.mp member with before | now
    · have took := reflects.present other before
      cases known : other.field with
      | scalar otherField =>
          rw [known] at took
          rw [Took, scalar?_putScalar, show block.scalar? otherField = _ from took, Option.some_or]
      | items list =>
          rw [known] at took
          exact took
    · obtain rfl := List.mem_singleton.mp now
      rw [same, Took, scalar?_putScalar, fresh, if_pos rfl, Option.none_or]
  absent other elsewhere := by
    rw [List.map_append, List.mem_append, not_or] at elsewhere
    have before := reflects.absent other elsewhere.1
    cases other with
    | scalar otherField =>
        have different : otherField ≠ field := by
          rintro rfl
          exact elsewhere.2 (by simp [same])
        rw [has_scalar] at before ⊢
        simpa [scalar?_putScalar, different] using before
    | items list => exact before

theorem Reflects.putItems {fields : List FieldLine} (reflects : block.Reflects fields)
    {line : FieldLine} {list : ListField} {items : List String} (same : line.field = .items list)
    (spells : SpellsItems line.value items) (fresh : block.has line.field = false) :
    (block.putItems list items).Reflects (fields ++ [line]) where
  present other member := by
    rw [same, has_items_eq_false_iff] at fresh
    rcases List.mem_append.mp member with before | now
    · have took := reflects.present other before
      cases known : other.field with
      | scalar field =>
          rw [known] at took
          exact took
      | items otherList =>
          rw [known] at took
          obtain ⟨otherItems, otherSpells, held⟩ := took
          refine ⟨otherItems, otherSpells, ?_⟩
          rw [list?_putItems, held, Option.some_or]
    · obtain rfl := List.mem_singleton.mp now
      rw [same]
      refine ⟨items, spells, ?_⟩
      rw [list?_putItems, fresh, if_pos rfl, Option.none_or]
  absent other elsewhere := by
    rw [List.map_append, List.mem_append, not_or] at elsewhere
    have before := reflects.absent other elsewhere.1
    cases other with
    | scalar field => exact before
    | items otherList =>
        have different : otherList ≠ list := by
          rintro rfl
          exact elsewhere.2 (by simp [same])
        rw [has_items] at before ⊢
        simpa [list?_putItems, different] using before

/-! ## The record of a block -/

section Record

variable {text : TextBlock} {record : Record}

theorem Reflects.given_of_has (reflects : block.Reflects text.fields) {field : BlockField}
    (has : block.has field = true) : field ∈ text.given := by
  by_contra elsewhere
  rw [reflects.absent field elsewhere] at has
  cases has

/-- A field that is given has a line, whose value the block holds. -/
theorem Reflects.exists_took (reflects : block.Reflects text.fields) {field : BlockField}
    (given : field ∈ text.given) :
    ∃ line ∈ text.fields, line.field = field ∧ block.Took line.value field := by
  obtain ⟨line, member, rfl⟩ := List.mem_map.mp given
  exact ⟨line, member, rfl, reflects.present line member⟩

theorem Reflects.has_of_given {fields : List FieldLine} (reflects : block.Reflects fields)
    {field : BlockField} (given : field ∈ fields.map FieldLine.field) : block.has field = true := by
  obtain ⟨line, member, rfl⟩ := List.mem_map.mp given
  have took := reflects.present line member
  cases same : line.field with
  | scalar scalar =>
      rw [same] at took
      rw [has_scalar, show block.scalar? scalar = _ from took]
      rfl
  | items list =>
      rw [same] at took
      obtain ⟨items, -, held⟩ := took
      rw [has_items, held]
      rfl

theorem scalar?_of_took {field : ScalarField} {value : String}
    (took : block.Took value (.scalar field)) :
    block.scalar? field = record.scalar? field ↔ record.HasValue value (.scalar field) := by
  rw [show block.scalar? field = _ from took]
  cases field with
  | name =>
      simp only [scalarText, Record.scalar?, Record.HasValue, reduceCtorEq, false_and, if_false,
        Option.some.injEq]
      exact eq_comm
  | type =>
      simp only [scalarText, Record.scalar?, Record.HasValue, reduceCtorEq, false_and, if_false]
      rw [eq_comm, Option.map_eq_some_iff]
      simp only [eq_comm]
  | visibility =>
      simp only [scalarText, Record.scalar?, Record.HasValue, true_and, String.isEmpty_iff]
      rw [eq_comm, Option.map_eq_some_iff]
      refine exists_congr fun visibility => and_congr_right fun _ => ?_
      have spoken : visibility.label ≠ "" := by cases visibility <;> decide
      by_cases silent : trim value = ""
      · have told : visibility.label = Visibility.fileLocal.label ↔ visibility = .fileLocal := by
          cases visibility <;> decide
        simp [silent, told, spoken.symm]
      · simp [silent, eq_comm]

theorem items_of_took {list : ListField} {value : String}
    (took : block.Took value (.items list)) :
    block.items list = record.items list ↔ record.HasValue value (.items list) := by
  obtain ⟨items, spells, held⟩ := took
  rw [items_eq, held, Option.getD_some]
  constructor
  · rintro rfl
    exact spells
  · exact spells.unique

theorem Reflects.scalar?_of_gives (reflects : block.Reflects text.fields)
    (gives : text.Gives record) (field : ScalarField) :
    block.scalar? field = record.scalar? field := by
  by_cases given : .scalar field ∈ text.given
  · obtain ⟨line, member, same, took⟩ := reflects.exists_took given
    exact (scalar?_of_took took).mpr (same ▸ gives.values line member)
  · -- only a visibility may be left out
    cases field with
    | name => exact absurd (gives.complete _ (by decide)) given
    | type => exact absurd (gives.complete _ (by decide)) given
    | visibility =>
        rw [has_scalar_eq_false_iff.mp (reflects.absent _ given), Record.scalar?,
          gives.unseen given]
        rfl

theorem Reflects.items_of_gives (reflects : block.Reflects text.fields)
    (gives : text.Gives record) (list : ListField) : block.items list = record.items list := by
  by_cases given : .items list ∈ text.given
  · obtain ⟨line, member, same, took⟩ := reflects.exists_took given
    exact (items_of_took took).mpr (same ▸ gives.values line member)
  · rw [items_eq, has_items_eq_false_iff.mp (reflects.absent _ given), gives.unlisted list given]
    rfl

theorem Reflects.gives_of_record? (reflects : block.Reflects text.fields)
    (read : block.record? = some record) : text.Gives record := by
  obtain ⟨kind, placed, scalars, items⟩ := record?_eq_some_iff.mp read
  refine ⟨?_, ?_, ?_, ?_⟩
  · intro field mandatory
    apply reflects.given_of_has
    simp only [BlockField.mandatory, List.mem_cons, List.not_mem_nil, or_false] at mandatory
    rcases mandatory with rfl | rfl | rfl
    · rw [has_scalar, scalars]
      rfl
    · rw [has_scalar, scalars]
      simpa [Record.scalar?] using kind
    · rw [has_items]
      exact placed
  · intro line member
    have took := reflects.present line member
    cases same : line.field with
    | scalar field =>
        rw [same] at took
        exact (scalar?_of_took took).mp (scalars field)
    | items list =>
        rw [same] at took
        exact (items_of_took took).mp (items list)
  · intro elsewhere
    have unread := has_scalar_eq_false_iff.mp (reflects.absent _ elsewhere)
    rw [scalars] at unread
    simpa [Record.scalar?] using unread
  · intro list elsewhere
    rw [← items, items_eq, has_items_eq_false_iff.mp (reflects.absent _ elsewhere)]
    rfl

/-- The record of a block is the one that its lines give. -/
theorem Reflects.record?_eq_some_iff (reflects : block.Reflects text.fields) :
    block.record? = some record ↔ text.Gives record := by
  refine ⟨reflects.gives_of_record?, fun gives => Block.record?_eq_some_iff.mpr ⟨?_, ?_,
    reflects.scalar?_of_gives gives, reflects.items_of_gives gives⟩⟩
  · have has := reflects.has_of_given (gives.complete (.scalar .type) (by decide))
    rw [has_scalar, reflects.scalar?_of_gives gives] at has
    simpa [Record.scalar?] using has
  · rw [← has_items]
    exact reflects.has_of_given (gives.complete (.items .origins) (by decide))

end Record

end Block

/-! ## One line more -/

namespace TableText

/-- A line is added to blocks: it opens a new one, or goes to the last one. -/
inductive Adds (line : String) : List TextBlock → List TextBlock → Prop where
  /-- The line of a new key opens a block. -/
  | opens {blocks : List TextBlock} (block : TextBlock) (key : line = block.key ++ ":")
      (bare : block.fields = []) (fresh : block.key ∉ blocks.map TextBlock.key) :
      Adds line blocks (blocks ++ [block])
  /-- The line of a field goes to the last block. -/
  | fills {blocks : List TextBlock} (before after : TextBlock) (field : FieldLine)
      (same : field.line = line) (key : after.key = before.key)
      (fields : after.fields = before.fields ++ [field]) :
      Adds line (blocks ++ [before]) (blocks ++ [after])

/-- Blocks are laid out in lines one by one. -/
theorem laidOut_concat_iff {lines : List String} {line : String} {blocks : List TextBlock} :
    LaidOut (lines ++ [line]) blocks ↔
      ∃ before, LaidOut lines before ∧ Adds line before blocks := by
  constructor
  · rintro ⟨lines_eq, distinct⟩
    rcases List.eq_nil_or_concat' blocks with rfl | ⟨front, last, rfl⟩
    · simp at lines_eq
    rw [List.flatMap_append, List.flatMap_singleton, TextBlock.lines] at lines_eq
    rcases List.eq_nil_or_concat' last.fields with bare | ⟨fields, field, whole⟩
    · rw [bare, List.map_nil] at lines_eq
      obtain ⟨early, ⟨⟩⟩ := List.append_inj' lines_eq rfl
      rw [List.map_append, List.map_singleton, List.nodup_append] at distinct
      refine ⟨front, ⟨early, distinct.1⟩, .opens last rfl bare fun member => ?_⟩
      exact distinct.2.2 _ member _ (List.mem_singleton_self _) rfl
    · rw [whole, List.map_append, List.map_singleton, ← List.cons_append,
        ← List.append_assoc] at lines_eq
      obtain ⟨early, ⟨⟩⟩ := List.append_inj' lines_eq rfl
      have fewer : (fields.map FieldLine.field).Nodup := by
        refine last.distinct.sublist ?_
        rw [whole, List.map_append]
        exact List.sublist_append_left _ _
      refine ⟨front ++ [{ last with fields, distinct := fewer }], ⟨?_, ?_⟩,
        .fills _ last field rfl rfl whole⟩
      · rw [early, List.flatMap_append, List.flatMap_singleton]
        rfl
      · simpa using distinct
  · rintro ⟨before, ⟨rfl, distinct⟩, added⟩
    cases added with
    | opens block key bare fresh =>
        refine ⟨?_, ?_⟩
        · rw [List.flatMap_append, List.flatMap_singleton, TextBlock.lines, bare, key]
          rfl
        · rw [List.map_append, List.map_singleton, List.nodup_append]
          refine ⟨distinct, by simp, ?_⟩
          rintro key member other isLast rfl
          exact fresh (List.mem_singleton.mp isLast ▸ member)
    | fills before after field same key fields =>
        refine ⟨?_, ?_⟩
        · simp [List.flatMap_append, TextBlock.lines, fields, key, same]
        · simpa [key] using distinct

namespace State

variable {state : State} {blocks : List TextBlock}

/-- What is known after some lines: nothing is wrong, and of each block of the lines what its lines
say. -/
structure Knows (state : State) (blocks : List TextBlock) : Prop where
  /-- Nothing is wrong. -/
  clean : state.findings = []
  /-- The keys are those of the blocks. -/
  keys : state.blocks.keys = blocks.map TextBlock.key
  /-- Each block holds what its lines say. -/
  reflects : ∀ text ∈ blocks, ∃ block, state.blocks.get? text.key = some block ∧
    block.Reflects text.fields
  /-- Fields go to the last block. -/
  current : state.current = blocks.getLast?.map TextBlock.key

theorem Knows.start {path : Option String} : ({ path } : State).Knows [] where
  clean := rfl
  keys := rfl
  reflects _ member := by cases member
  current := rfl

theorem Knows.contains_iff (knows : state.Knows blocks) (key : Key) :
    state.blocks.contains key = true ↔ key ∈ blocks.map TextBlock.key := by
  rw [KeyMap.contains_iff, knows.keys]

/-! ### Findings stay -/

theorem findings_note (problem : Problem) (number : Nat) (key : Option Key) :
    state.findings <+: (state.note problem number key).findings :=
  List.prefix_append _ _

theorem findings_openBlock (number : Nat) (key : Key) :
    state.findings <+: (state.openBlock number key).findings := by
  unfold openBlock
  split
  · exact findings_note _ _ _
  · exact List.prefix_rfl

theorem findings_takeValue (number : Nat) (key : Key) (field : BlockField) (value : String) :
    state.findings <+: (state.takeValue number key field value).findings := by
  cases field with
  | items list =>
      unfold takeValue
      cases items? value with
      | none => exact findings_note _ _ _
      | some items => exact List.prefix_rfl
  | scalar field =>
      simp only [takeValue]
      split <;> exact List.prefix_rfl

theorem findings_takeField (number : Nat) (label value : String) :
    state.findings <+: (state.takeField number label value).findings := by
  unfold takeField
  split
  · exact findings_note _ _ _
  · split
    · exact findings_note _ _ _
    · split
      · exact findings_note _ _ _
      · exact findings_takeValue _ _ _ _

theorem findings_feed (number : Nat) (raw : String) :
    state.findings <+: (state.feed number raw).findings := by
  simp only [feed]
  split
  · exact List.prefix_rfl
  · split
    · exact findings_openBlock _ _
    · split
      · exact findings_takeField _ _ _
      · exact findings_note _ _ _

/-! ### A line that counts -/

theorem feed_of_not_counts (number : Nat) {raw : String}
    (skipped : counts (trimRight raw) = false) : state.feed number raw = state := by
  rw [counts_eq, trimRight, String.toList_ofList, Bool.not_eq_false'] at skipped
  simp [feed, skipped]

theorem feed_of_counts (number : Nat) {raw : String} (counting : counts (trimRight raw) = true) :
    state.feed number raw =
      match keyLine? (trimRight raw).toList with
      | some key => state.openBlock number key
      | none =>
          match fieldLine? (trimRight raw).toList with
          | some (label, value) => state.takeField number label value
          | none => state.note (.unrecognisedLine (trimRight raw)) number := by
  rw [counts_eq, trimRight, String.toList_ofList, Bool.not_eq_true'] at counting
  rw [trimRight, String.toList_ofList]
  exact if_neg (Bool.eq_false_iff.mp counting)

theorem Knows.openBlock (knows : state.Knows blocks) (number : Nat) {block : TextBlock}
    (bare : block.fields = []) (fresh : block.key ∉ blocks.map TextBlock.key) :
    (state.openBlock number block.key).Knows (blocks ++ [block]) := by
  have absent : state.blocks.contains block.key = false := by
    rw [Bool.eq_false_iff, ne_eq, knows.contains_iff]
    exact fresh
  unfold State.openBlock
  rw [absent, if_neg Bool.false_ne_true]
  refine ⟨knows.clean, ?_, ?_, by simp⟩
  · rw [KeyMap.keys_insert, knows.keys, if_neg fresh]
    simp
  · intro text member
    rcases List.mem_append.mp member with before | now
    · have different : text.key ≠ block.key := fun same =>
        fresh (same ▸ List.mem_map.mpr ⟨text, before, rfl⟩)
      obtain ⟨read, found, reflects⟩ := knows.reflects text before
      exact ⟨read, by simp [different, found], reflects⟩
    · obtain rfl := List.mem_singleton.mp now
      exact ⟨{ line := number }, by simp, bare ▸ .fresh number⟩

/-- The value of a field that the block does not have yet goes to the block. -/
theorem takeField_eq_change {key : Key} {read : Block} {fields : List FieldLine}
    (current : state.current = some key) (found : state.blocks.get? key = some read)
    (reflects : read.Reflects fields) {field : FieldLine}
    (fresh : field.field ∉ fields.map FieldLine.field) (number : Nat) :
    ∃ change, state.takeField number field.field.label field.value = state.change key change ∧
      (change read).Reflects (fields ++ [field]) := by
  have unread := reflects.absent _ fresh
  have taken : state.takeField number field.field.label field.value =
      state.takeValue number key field.field field.value := by
    have none : (state.blocks.get? key).any (fun block => block.has field.field) = false := by
      rw [found]
      exact unread
    simp only [takeField, current, BlockField.ofLabel?_label, none, Bool.false_eq_true, if_false]
  rw [taken]
  cases same : field.field with
  | scalar scalar =>
      refine ⟨(·.putScalar scalar (Block.scalarText scalar field.value)), ?_,
        reflects.putScalar same unread⟩
      simp only [takeValue, Block.scalarText]
      split <;> rfl
  | items list =>
      obtain ⟨items, spells⟩ := field.listed list same
      refine ⟨(·.putItems list items), ?_, reflects.putItems same spells unread⟩
      simp only [takeValue, items?_iff.mpr spells]

theorem Knows.takeField {before after : TextBlock} (knows : state.Knows (blocks ++ [before]))
    (number : Nat) {field : FieldLine} (key : after.key = before.key)
    (fields : after.fields = before.fields ++ [field]) :
    (state.takeField number field.field.label field.value).Knows (blocks ++ [after]) := by
  obtain ⟨read, found, reflects⟩ := knows.reflects before (by simp)
  have current : state.current = some before.key := by simp [knows.current]
  have fresh : field.field ∉ before.fields.map FieldLine.field := by
    have distinct := after.distinct
    rw [fields, List.map_append, List.nodup_append] at distinct
    exact fun member => distinct.2.2 _ member _ (by simp) rfl
  obtain ⟨change, taken, changed⟩ := takeField_eq_change current found reflects fresh number
  have keys : state.blocks.keys = (blocks ++ [after]).map TextBlock.key := by
    simp [knows.keys, key]
  have distinct := keys ▸ state.blocks.keys_nodup
  rw [List.map_append, List.nodup_append] at distinct
  rw [taken]
  refine ⟨knows.clean, ?_, ?_, ?_⟩
  · exact (KeyMap.keys_modify _ _ _).trans keys
  · intro text member
    rcases List.mem_append.mp member with earlier | now
    · have different : text.key ≠ before.key := fun same =>
        distinct.2.2 _ (List.mem_map.mpr ⟨text, earlier, rfl⟩) after.key (by simp)
          (same.trans key.symm)
      obtain ⟨other, otherFound, otherReflects⟩ :=
        knows.reflects text (List.mem_append_left _ earlier)
      exact ⟨other, by simp [State.change, different, otherFound], otherReflects⟩
    · obtain rfl := List.mem_singleton.mp now
      exact ⟨change read, by simp [State.change, key, found], fields ▸ changed⟩
  · simpa [State.change, key] using current

/-- A line that the grammar allows is read as the grammar says. -/
theorem Knows.feed (knows : state.Knows blocks) (number : Nat) {raw : String}
    {after : List TextBlock} (counting : counts (trimRight raw) = true)
    (oneLine : '\n' ∉ (trimRight raw).toList) (added : Adds (trimRight raw) blocks after) :
    (state.feed number raw).Knows after := by
  rw [feed_of_counts number counting]
  cases added with
  | opens block key bare fresh =>
      rw [(keyLine?_iff oneLine).mpr ⟨key, block.visible⟩]
      exact knows.openBlock number bare fresh
  | fills before after field same key fields =>
      obtain ⟨gap, shape, -⟩ := field.cut.cuts.shape
      have noKey : keyLine? (trimRight raw).toList = none := by
        rw [← same, shape]
        exact keyLine?_of_blank _ (by decide)
      have cut : IsFieldLine (trimRight raw) field.field.label field.value := same ▸ field.cut
      rw [noKey, (fieldLine?_iff oneLine).mpr cut]
      exact knows.takeField number key fields

/-! ### A line that is not found wrong -/

theorem findings_note_ne_nil (problem : Problem) (number : Nat) (key : Option Key) :
    (state.note problem number key).findings ≠ [] :=
  List.append_ne_nil_of_right_ne_nil _ (List.cons_ne_nil _ _)

/-- A field with which nothing is wrong is a known one that the current block does not have yet, and
if it is a list, its value spells one. -/
theorem exists_of_takeField {number : Nat} {label value : String}
    (clean : (state.takeField number label value).findings = []) :
    ∃ key field, state.current = some key ∧ field.label = label ∧
      (∀ block, state.blocks.get? key = some block → block.has field = false) ∧
        ∀ list, field = .items list → ∃ items, SpellsItems value items := by
  unfold State.takeField at clean
  split at clean
  · exact absurd clean (findings_note_ne_nil _ _ _)
  next key current =>
  split at clean
  · exact absurd clean (findings_note_ne_nil _ _ _)
  next field known =>
  split at clean
  · exact absurd clean (findings_note_ne_nil _ _ _)
  next unread =>
  have labelled := (find?_label_eq_some_iff BlockField.ofLabel?_label _ _).mp known
  refine ⟨key, field, current, labelled.symm, fun block found => ?_, ?_⟩
  · simpa [found] using unread
  · rintro list rfl
    cases items : items? value with
    | none =>
        simp only [State.takeValue, items] at clean
        exact absurd clean (findings_note_ne_nil _ _ _)
    | some items => exact ⟨_, items?_iff.mp items⟩

/-- A field with which nothing is wrong may be added to the last block. -/
theorem Knows.exists_adds_field (knows : state.Knows blocks) {number : Nat}
    {line label value : String} (cut : IsFieldLine line label value)
    (clean : (state.takeField number label value).findings = []) :
    ∃ after, Adds line blocks after := by
  obtain ⟨key, field, current, rfl, unread, listed⟩ := exists_of_takeField clean
  rw [knows.current] at current
  obtain ⟨last, isLast, rfl⟩ := Option.map_eq_some_iff.mp current
  obtain ⟨front, rfl⟩ := List.getLast?_eq_some_iff.mp isLast
  obtain ⟨block, found, reflects⟩ := knows.reflects last (by simp)
  have fresh : field ∉ last.fields.map FieldLine.field := by
    intro given
    have has := reflects.has_of_given given
    rw [unread block found] at has
    cases has
  let added : FieldLine := ⟨line, field, value, cut, listed⟩
  have distinct : ((last.fields ++ [added]).map FieldLine.field).Nodup := by
    rw [List.map_append, List.map_singleton, ← List.concat_eq_append]
    exact last.distinct.concat fresh
  exact ⟨_, .fills last ⟨last.key, last.visible, _, distinct⟩ added rfl rfl rfl⟩

/-- A line that is not found wrong is one that the grammar allows. -/
theorem Knows.exists_adds (knows : state.Knows blocks) (number : Nat) {raw : String}
    (counting : counts (trimRight raw) = true) (oneLine : '\n' ∉ (trimRight raw).toList)
    (clean : (state.feed number raw).findings = []) :
    ∃ after, Adds (trimRight raw) blocks after := by
  rw [feed_of_counts number counting] at clean
  split at clean
  · next key read =>
      obtain ⟨shape, visible⟩ := (keyLine?_iff oneLine).mp read
      unfold State.openBlock at clean
      split at clean
      · exact absurd clean (findings_note_ne_nil _ _ _)
      · next fresh =>
          rw [knows.contains_iff] at fresh
          exact ⟨_, .opens ⟨key, visible, [], List.nodup_nil⟩ shape rfl fresh⟩
  · split at clean
    · next label value read =>
        exact knows.exists_adds_field ((fieldLine?_iff oneLine).mp read) clean
    · exact absurd clean (findings_note_ne_nil _ _ _)

end State

/-! ## All lines -/

theorem counted_concat (raws : List String) (raw : String) :
    counted (raws ++ [raw]) =
      counted raws ++ if counts (trimRight raw) then [trimRight raw] else [] := by
  rw [counted, counted, List.map_append, List.filter_append, List.map_singleton,
    List.filter_singleton, cond_eq_ite]

theorem LaidOut.eq_nil {blocks : List TextBlock} (laidOut : LaidOut [] blocks) : blocks = [] := by
  cases blocks with
  | nil => rfl
  | cons block blocks =>
      have none := laidOut.lines_eq
      simp [TextBlock.lines] at none

/-- What is known after some lines is what their blocks say, and if nothing is wrong they are
blocks. -/
theorem State.knows_feedLines (path : Option String) (number : Nat) {raws : List String}
    (oneLine : ∀ raw ∈ raws, OneLine raw) :
    (∀ blocks, LaidOut (counted raws) blocks →
        (({ path } : State).feedLines number raws).Knows blocks) ∧
      ((({ path } : State).feedLines number raws).findings = [] →
        ∃ blocks, LaidOut (counted raws) blocks) := by
  induction raws using List.reverseRecOn with
  | nil => exact ⟨fun blocks laidOut => laidOut.eq_nil ▸ .start, fun _ => ⟨[], rfl, List.nodup_nil⟩⟩
  | append_singleton raws raw induction =>
      obtain ⟨known, laid⟩ :=
        induction fun other member => oneLine other (List.mem_append_left _ member)
      rw [feedLines_append, feedLines, feedLines, counted_concat]
      generalize ({ path } : State).feedLines number raws = state at known laid
      cases counting : counts (trimRight raw) with
      | false =>
          rw [state.feed_of_not_counts _ counting, if_neg Bool.false_ne_true, List.append_nil]
          exact ⟨known, laid⟩
      | true =>
          have noNewline : '\n' ∉ (trimRight raw).toList := by
            rw [trimRight, String.toList_ofList]
            exact fun member => (oneLine raw (by simp)).newline_not_mem
              (mem_of_mem_dropTrailing member)
          rw [if_pos rfl]
          constructor
          · intro blocks laidOut
            obtain ⟨before, laidBefore, added⟩ := laidOut_concat_iff.mp laidOut
            exact (known before laidBefore).feed _ counting noNewline added
          · intro clean
            have cleanBefore := List.prefix_nil.mp (clean ▸ state.findings_feed _ raw)
            obtain ⟨before, laidBefore⟩ := laid cleanBefore
            obtain ⟨after, added⟩ :=
              (known before laidBefore).exists_adds _ counting noNewline clean
            exact ⟨after, laidOut_concat_iff.mpr ⟨before, laidBefore, added⟩⟩

end TableText

/-! ## The table -/

namespace TableText.State

variable {state : State} {blocks : List TextBlock} {records : Key → Option Record}

/-- The record that is spelled for a block is the one that its lines give. -/
theorem Knows.record_iff (knows : state.Knows blocks) (spells : state.Spells records)
    {text : TextBlock} (member : text ∈ blocks) (record : Record) :
    records text.key = some record ↔ text.Gives record := by
  obtain ⟨block, found, reflects⟩ := knows.reflects text member
  have spelled := spells.2 text.key
  rw [found, Option.map_some] at spelled
  rw [← reflects.record?_eq_some_iff]
  cases known : records text.key with
  | none => simp [known] at spelled
  | some other => simp_all

/-- Records are spelled iff each block gives one. -/
theorem Knows.exists_spells_iff (knows : state.Knows blocks) :
    (∃ records, state.Spells records) ↔ ∀ text ∈ blocks, ∃ record, text.Gives record := by
  constructor
  · rintro ⟨records, spells⟩ text member
    obtain ⟨block, found, -⟩ := knows.reflects text member
    have spelled := spells.2 text.key
    rw [found, Option.map_some] at spelled
    obtain ⟨record, known, -⟩ := Option.map_eq_some_iff.mp spelled.symm
    exact ⟨record, (knows.record_iff spells member record).mp known⟩
  · intro gives
    refine ⟨fun key => (state.blocks.get? key).bind Block.record?, knows.clean, fun key => ?_⟩
    cases found : state.blocks.get? key with
    | none => simp [found]
    | some block =>
        have present := state.blocks.mem_keys_of_get? found
        rw [knows.keys] at present
        obtain ⟨text, member, rfl⟩ := List.mem_map.mp present
        obtain ⟨other, otherFound, reflects⟩ := knows.reflects text member
        obtain rfl : block = other := Option.some.inj (found.symm.trans otherFound)
        obtain ⟨record, given⟩ := gives text member
        simp [found, reflects.record?_eq_some_iff.mpr given]

theorem map_fst_filterMap_of_isSome {α β : Type} {entries : List (Key × α)} {read : α → Option β}
    (complete : ∀ entry ∈ entries, (read entry.2).isSome = true) :
    (entries.filterMap fun entry => (read entry.2).map fun value => (entry.1, value)).map Prod.fst =
      entries.map Prod.fst := by
  induction entries with
  | nil => rfl
  | cons entry entries induction =>
      obtain ⟨value, given⟩ := Option.isSome_iff_exists.mp (complete entry List.mem_cons_self)
      have later := induction fun other member => complete other (List.mem_cons_of_mem _ member)
      rw [List.filterMap_cons, given, List.map_cons, ← later]
      rfl

/-- If every block has a record, the keys of the records are those of the blocks. -/
theorem keys_ofRecords_finish
    (complete : ∀ entry ∈ state.blocks.entries, entry.2.record?.isSome = true) :
    (Table.ofRecords state.finish.2).keys = state.blocks.keys := by
  have entries : (Table.ofRecords state.finish.2).records.entries = state.finish.2 :=
    KeyMap.entries_ofList distinct_finish
  rw [Table.keys, KeyMap.keys, entries, records_finish, map_fst_filterMap_of_isSome complete]
  rfl

end TableText.State

namespace Table

/-- A table is read from a text iff the lines that count are blocks with different keys that each
give a record; and then its keys are those of the blocks, in their order, and it has for each block
the record that the block gives. -/
theorem read_exact (text : String) (path : Option String) :
    ((∃ table, (read text path).table = some table) ↔
        ∃ blocks, LaidOut (counted (splitLines text)) blocks ∧
          ∀ block ∈ blocks, ∃ record, block.Gives record) ∧
      ∀ table blocks, (read text path).table = some table →
        LaidOut (counted (splitLines text)) blocks →
          table.keys = blocks.map TextBlock.key ∧ table.detached = ∅ ∧
            ∀ block ∈ blocks, ∀ record,
              table.get? block.key = some record ↔ block.Gives record := by
  obtain ⟨knows, laid⟩ := State.knows_feedLines path 1 fun raw (member : raw ∈ splitLines text) =>
    oneLine_of_mem_splitLines member
  constructor
  · constructor
    · rintro ⟨table, given⟩
      have spells := readLines_iff_spells.mp ⟨table, given, fun _ => rfl⟩
      obtain ⟨blocks, laidOut⟩ := laid spells.1
      exact ⟨blocks, laidOut, (knows blocks laidOut).exists_spells_iff.mp ⟨_, spells⟩⟩
    · rintro ⟨blocks, laidOut, gives⟩
      obtain ⟨records, spells⟩ := (knows blocks laidOut).exists_spells_iff.mpr gives
      obtain ⟨table, given, -⟩ := readLines_iff_spells.mpr spells
      exact ⟨table, given⟩
  · intro table blocks given laidOut
    have spells := readLines_iff_spells.mp ⟨table, given, fun _ => rfl⟩
    obtain ⟨clear, rfl⟩ := readLines_eq_some_iff.mp given
    refine ⟨?_, rfl, fun block member record =>
      (knows blocks laidOut).record_iff spells member record⟩
    rw [State.keys_ofRecords_finish (State.findings_finish_iff.mp clear).2]
    exact (knows blocks laidOut).keys

/-- A text with a comment, a blank line, a key of a colon, a name that is empty, one with a colon,
and a visibility without value. -/
def oddText : String :=
  "::\n  name:\n  type:function\n  filename: [ ]\n\nf@a.c:\n  #\n  visibility: \n  name: f: g\n" ++
    "  type: variable\n  filename: [a b.c, c.c]\n"

theorem read_exact_oddText :
    ∃ table blocks, (read oddText).table = some table ∧
      LaidOut (counted (splitLines oddText)) blocks ∧
        blocks.map TextBlock.key = [":", "f@a.c"] ∧
          ∀ block ∈ blocks, ∃ record, table.get? block.key = some record ∧ block.Gives record := by
  have keys : (read oddText).table.map Table.keys = some [":", "f@a.c"] := by decide +kernel
  obtain ⟨table, given, known⟩ := Option.map_eq_some_iff.mp keys
  obtain ⟨blocks, laidOut, gives⟩ := (read_exact oddText none).1.mp ⟨table, given⟩
  obtain ⟨same, -, records⟩ := (read_exact oddText none).2 table blocks given laidOut
  refine ⟨table, blocks, given, laidOut, same.symm.trans known, fun block member => ?_⟩
  obtain ⟨record, given⟩ := gives block member
  exact ⟨record, (records block member record).mpr given, given⟩

end Table

end CallGraph
