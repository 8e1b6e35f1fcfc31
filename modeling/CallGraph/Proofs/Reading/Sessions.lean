import CallGraph.Proofs.Reading.Invariants
import CallGraph.Proofs.Reading.Lines
import Mathlib.Logic.Relation

/-!
# Sessions of readers

Readers work on one table, one after another, each for its own unit.  Whatever lines they accept and
whenever they end, the form of a key tells what its record may say: a private key names the only
origin of its record, which is not public, and every other record is public.  Nothing checks this
while dumps are read; it follows from what each line may do.  The kind of a symbol, once it is
known, stays as it is for as long as the table holds the key.
-/

namespace CallGraph

/-! ## What a table holds -/

/-- A record as readers of the given units leave it under a key. -/
structure Record.Kept (origins : List Origin) (key : Key) (record : Record) : Prop where
  /-- A private key is made of a symbol and of the only origin of its record. -/
  hidden : Key.isPrivate key = true → ∃ symbol, ∃ origin ∈ origins,
    symbol ≠ "" ∧ Key.isPrivate symbol = false ∧ key = Key.inOrigin symbol origin ∧
      record.origins = [origin] ∧
        (record.visibility = none ∨ record.visibility = some .fileLocal)
  /-- A record under a bare symbol is public. -/
  exported : Key.isPrivate key = false → record.visibility = some .exported
  /-- The symbol has a name. -/
  named : record.name ≠ ""
  /-- The name is free of the separator of private keys. -/
  unmarked : Key.isPrivate record.name = false
  /-- No origin is repeated. -/
  origins : record.origins.Nodup
  /-- No edge is repeated. -/
  edges : ∀ field, (record.edges field).Nodup

namespace Record.Kept

variable {origins : List Origin} {key : Key} {record other : Record}

/-- A record under the private key of an origin has this origin and no other. -/
theorem origins_eq {symbol : String} {origin : Origin}
    (kept : record.Kept origins (Key.inOrigin symbol origin))
    (unmarked : Key.isPrivate symbol = false) : record.origins = [origin] := by
  obtain ⟨own, unit, -, -, ownUnmarked, same, single, -⟩ :=
    kept.hidden (Key.isPrivate_inOrigin symbol origin)
  obtain ⟨-, rfl⟩ := Key.inOrigin_injective unmarked ownUnmarked same
  exact single

theorem addEdges (kept : record.Kept origins key) (field : EdgeField) (tokens : List String) :
    (record.addEdges field tokens).Kept origins key where
  hidden marked := by simpa [Record.addEdges] using kept.hidden marked
  exported bare := by simpa [Record.addEdges] using kept.exported bare
  named := by simpa [Record.addEdges] using kept.named
  unmarked := by simpa [Record.addEdges] using kept.unmarked
  origins := by simpa [Record.addEdges] using kept.origins
  edges own := by
    rw [edges_addEdges]
    split
    · exact nodup_union (kept.edges field) tokens
    · exact kept.edges own

/-- Two records of one key join to one that may stand there. -/
theorem absorb (kept : record.Kept origins key) (otherKept : other.Kept origins key) :
    (record.absorb other).Kept origins key := by
  have body := body_absorb record other
  have name : (record.absorb other).name = record.name := (name_eq_of_body body).trans rfl
  have visibility : (record.absorb other).visibility = record.visibility :=
    (visibility_eq_of_body body).trans rfl
  have joined := origins_absorb record other
  constructor
  case hidden =>
    intro marked
    obtain ⟨symbol, origin, listed, nonempty, unmarked, rfl, single, unseen⟩ := kept.hidden marked
    refine ⟨symbol, origin, listed, nonempty, unmarked, rfl, ?_, by rwa [visibility]⟩
    rw [joined, single, otherKept.origins_eq unmarked]
    simp [union]
  case exported => exact fun bare => visibility.trans (kept.exported bare)
  case named => exact name ▸ kept.named
  case unmarked => exact name ▸ kept.unmarked
  case origins => exact joined ▸ nodup_union kept.origins _
  case edges =>
    intro field
    rw [edges_absorb]
    exact nodup_union (kept.edges field) _

end Record.Kept

namespace Table

/-- A table as readers of the given units leave it. -/
structure WellKept (table : Table) (origins : List Origin) : Prop where
  /-- Every record is as its key tells. -/
  records : ∀ key record, table.get? key = some record → record.Kept origins key
  /-- Only bare symbols wait for their return, each with at least one origin and none twice. -/
  detached : ∀ key waiting, table.detached.get? key = some waiting →
    Key.isPrivate key = false ∧ waiting ≠ [] ∧ waiting.Nodup

/-- The kind of the symbol of a key, as far as it is known. -/
def kind? (table : Table) (key : Key) : Option Kind := (table.get? key).bind Record.kind

variable {table after : Table} {key own : Key} {kind : Kind}

theorem detached_ensure (table : Table) (key : Key) :
    (table.ensure key).detached = table.detached := by
  unfold ensure
  split <;> rfl

/-- Only a bare symbol with origins leaves something behind when it is dropped. -/
theorem detached_dropSpurious_cases (table : Table) (key : Key) :
    (table.dropSpurious key).detached = table.detached ∨
      ∃ origins, Key.isPrivate key = false ∧ origins ≠ [] ∧
        (table.dropSpurious key).detached =
          table.detached.insert key (union ((table.detached.get? key).getD []) origins) := by
  unfold dropSpurious
  split
  · exact .inl rfl
  · next record present =>
      split
      · exact .inl rfl
      · split
        · next leaves =>
            rw [Bool.and_eq_true, Bool.not_eq_true', Bool.not_eq_true'] at leaves
            exact .inr ⟨record.origins, leaves.1, List.isEmpty_eq_false_iff.mp leaves.2, rfl⟩
        · exact .inl rfl

theorem WellKept.detached_dropSpurious {origins : List Origin} (kept : table.WellKept origins)
    {waiting : List Origin}
    (found : (table.dropSpurious key).detached.get? own = some waiting) :
    Key.isPrivate own = false ∧ waiting ≠ [] ∧ waiting.Nodup := by
  rcases table.detached_dropSpurious_cases key with same | ⟨left, bare, nonempty, grown⟩
  · exact kept.detached own waiting (same ▸ found)
  · rw [grown, KeyMap.get?_insert] at found
    split at found
    · next isKey =>
        cases found
        refine ⟨isKey ▸ bare, ?_, ?_⟩
        · obtain ⟨origin, listed⟩ := List.exists_mem_of_ne_nil _ nonempty
          exact List.ne_nil_of_mem (mem_union.mpr (.inr listed))
        · apply nodup_union
          cases waits : table.detached.get? key with
          | none => exact List.nodup_nil
          | some earlier => exact (kept.detached key earlier waits).2.2
    · exact kept.detached own waiting found

theorem kind?_eq_some_iff :
    table.kind? key = some kind ↔
      ∃ record, table.get? key = some record ∧ record.kind = some kind :=
  Option.bind_eq_some_iff

theorem kind?_modify (known : table.kind? own = some kind) {change : Record → Record}
    (same : ∀ record, (change record).kind = record.kind) :
    (table.modify key change).kind? own = some kind := by
  obtain ⟨record, found, recordKind⟩ := kind?_eq_some_iff.mp known
  rw [kind?, get?_modify, found]
  split
  · exact (same record).trans recordKind
  · exact recordKind

theorem kind?_ensure (known : table.kind? own = some kind) :
    (table.ensure key).kind? own = some kind := by
  obtain ⟨record, found, recordKind⟩ := kind?_eq_some_iff.mp known
  rw [kind?, get?_ensure]
  split
  · next same =>
      rw [← same, found]
      exact recordKind
  · rw [found]
    exact recordKind

/-- Taking records away changes the kind of no symbol that stays. -/
theorem kind?_of_kept (known : table.kind? own = some kind)
    (kept : ∀ record, after.get? own = some record → table.get? own = some record)
    (stays : after.contains own = true) : after.kind? own = some kind := by
  obtain ⟨record, found⟩ := (contains_iff _ own).mp stays
  rw [kind?, found]
  rw [kind?, kept record found] at known
  exact known

/-- Merging changes the kind of no symbol that stays. -/
theorem kind?_merge {target source : Key} (merged : merge target source table = .ok () after)
    (known : table.kind? own = some kind) (stays : after.contains own = true) :
    after.kind? own = some kind := by
  by_cases different : target = source
  · obtain ⟨incoming, -, ⟨-, rfl⟩ | ⟨apart, -⟩⟩ := merge_ok_iff.mp merged
    · exact known
    · exact absurd different apart
  · obtain ⟨incoming, -, records⟩ := get?_merge merged different
    obtain ⟨record, found, recordKind⟩ := kind?_eq_some_iff.mp known
    obtain ⟨joined, present⟩ := (contains_iff _ own).mp stays
    rw [records] at present
    refine kind?_eq_some_iff.mpr ⟨joined, by rw [records, present], ?_⟩
    split at present
    · next isTarget =>
        subst isTarget
        rw [found] at present
        cases present
        exact (Record.kind_eq_of_body (record.body_absorb incoming)).trans recordKind
    · split at present
      · cases present
      · rw [found] at present
        cases present
        exact recordKind

end Table

namespace Dump

variable {origins : List Origin} {origin : Origin} {table after : Table} {current final : Key}

/-! ## What a line keeps -/

/-- Lines of a unit keep records as their keys tell. -/
theorem upholds_kept (listed : origin ∈ origins) :
    Upholds Line.Sayable origin (Record.Kept origins ·) fun _ => True where
  opened := by
    rintro header ⟨line, read⟩ stored earlier
    obtain ⟨symbol, name, symbolUnmarked, nameUnmarked⟩ := header_of_readLine read
    have single : (stored.getD {}).origins = [] ∨ (stored.getD {}).origins = [origin] := by
      cases stored with
      | none => exact .inl rfl
      | some record => exact .inr ((earlier record rfl).origins_eq symbolUnmarked)
    have joined : (openedRecord header.name origin (stored.getD {})).origins = [origin] := by
      change union (stored.getD {}).origins [origin] = [origin]
      rcases single with none | own
      · rw [none]
        rfl
      · rw [own]
        simp [union]
    constructor
    case hidden =>
      refine fun marked => ⟨header.symbol, origin, listed, symbol, symbolUnmarked, rfl, joined, ?_⟩
      change (stored.getD {}).visibility = none ∨ (stored.getD {}).visibility = some .fileLocal
      cases stored with
      | none => exact .inl rfl
      | some record =>
          obtain ⟨-, -, -, -, -, -, -, unseen⟩ := (earlier record rfl).hidden marked
          exact unseen
    case exported =>
      intro bare
      rw [Key.isPrivate_inOrigin] at bare
      cases bare
    case named => exact name
    case unmarked => exact nameUnmarked
    case origins => simp [joined]
    case edges =>
      intro field
      cases stored with
      | none => cases field <;> exact List.nodup_nil
      | some record => exact (earlier record rfl).edges field
  typed _ _ _ kept :=
    ⟨kept.hidden, kept.exported, kept.named, kept.unmarked, kept.origins, kept.edges⟩
  hidden key record unseen kept := by
    refine ⟨fun marked => ?_, fun bare => absurd (kept.exported bare) unseen, kept.named,
      kept.unmarked, kept.origins, kept.edges⟩
    obtain ⟨symbol, unit, listed, nonempty, unmarked, same, single, -⟩ := kept.hidden marked
    exact ⟨symbol, unit, listed, nonempty, unmarked, same, single, .inr rfl⟩
  published key record external kept := by
    refine ⟨fun marked => ?_, fun _ => rfl, kept.named, kept.unmarked, ?_, kept.edges⟩
    · rw [Key.isPrivate_bare] at marked
      cases marked
    · cases external with
      | true => exact List.nodup_nil
      | false => exact kept.origins
  absorbed _ _ _ kept otherKept := kept.absorb otherKept
  listed _ _ field value _ kept := kept.addEdges field (edgeTokens value)
  known _ _ _ _ _ := trivial

theorem wellKept_empty (origins : List Origin) : (∅ : Table).WellKept origins where
  records key record found := by cases found
  detached key waiting found := by cases found

theorem wellKept_dropSpurious (kept : table.WellKept origins) (key : Key) :
    (table.dropSpurious key).WellKept origins where
  records := by
    have satisfies : table.Satisfies (Record.Kept origins ·) fun _ => True :=
      ⟨kept.records, fun _ _ _ => trivial⟩
    exact (satisfies.dropSpurious (fun _ _ _ _ _ => trivial) key).records
  detached _ _ := kept.detached_dropSpurious

theorem Move.wellKept {item : Line} (move : Move origin table current item after final)
    (sayable : item.Sayable) (listed : origin ∈ origins) (kept : table.WellKept origins) :
    after.WellKept origins where
  records := by
    have satisfies : table.Satisfies (Record.Kept origins ·) fun _ => True :=
      ⟨kept.records, fun _ _ _ => trivial⟩
    exact (move.satisfies (upholds_kept listed) sayable satisfies).records
  detached := by
    cases move with
    | header header known =>
        change ∀ own waiting,
          (Table.ensure _ (Key.inOrigin header.symbol origin)).detached.get? own = some waiting → _
        rw [Table.detached_ensure]
        unfold closedTable
        split
        · exact fun own waiting => kept.detached_dropSpurious
        · exact kept.detached
    | exported value flags after present named isExported merged =>
        rw [Table.detached_merge merged]
        exact kept.detached
    | other => exact kept.detached
    | stray => exact kept.detached
    | type => exact kept.detached
    | artificial => exact kept.detached
    | fileLocal => exact kept.detached
    | edges => exact kept.detached

/-- A line changes the kind of no symbol that stays. -/
theorem Move.kind?_eq {item : Line} (move : Move origin table current item after final)
    {key : Key} {kind : Kind} (known : table.kind? key = some kind)
    (stays : after.contains key = true) : after.kind? key = some kind := by
  cases move with
  | other => exact known
  | stray => exact known
  | header header admitted =>
      refine Table.kind?_modify (Table.kind?_ensure (Table.kind?_of_kept known ?_ ?_)) fun _ => rfl
      · exact fun record found => get?_of_closedTable found
      · by_cases own : key = Key.inOrigin header.symbol origin
        · -- The new block never closes an earlier block of its own key.
          have apart : ¬ (key = current ∧ current ≠ "" ∧ current ≠ header.symbol ∧
              current ≠ Key.inOrigin header.symbol origin) := by
            rintro ⟨rfl, -, -, different⟩
            exact different own
          obtain ⟨record, found, -⟩ := Table.kind?_eq_some_iff.mp known
          refine (Table.contains_iff _ key).mpr ⟨record, ?_⟩
          rw [get?_closedTable, if_neg apart, found]
        · rw [Table.contains_iff, get?_opened_of_ne own, ← Table.contains_iff] at stays
          exact stays
  | type value read present named agrees =>
      obtain ⟨record, found, recordKind⟩ := Table.kind?_eq_some_iff.mp known
      rw [Table.kind?, Table.get?_modify, found]
      split
      · next same =>
          subst same
          rw [agrees kind known]
          rfl
      · exact recordKind
  | exported value flags after present named isExported merged =>
      exact Table.kind?_merge merged (Table.kind?_modify known fun _ => rfl) stays
  | artificial =>
      refine Table.kind?_of_kept known (fun record found => ?_) stays
      rw [Table.get?_erase] at found
      split at found
      · cases found
      · exact found
  | fileLocal => exact Table.kind?_modify known fun _ => rfl
  | edges field value => exact Table.kind?_modify known fun record => record.kind_withEdges field _

/-! ## Sessions -/

/-- What is asked of a reader: to take a line, or to end its unit. -/
inductive Call where
  /-- Take a line. -/
  | feed (line : String)
  /-- End the unit. -/
  | finish
  deriving DecidableEq, Repr

/-- Do what is asked. -/
def Call.perform : Call → Reader.Action Unit
  | feed line => Reader.feed line
  | finish => Reader.finish

/-- One turn of a session: a call succeeds, or the reader of another unit takes the table over. -/
inductive Turn (origins : List Origin) (reader : Reader) : Reader → Prop
  | call (call : Call) (after : Reader) (performed : call.perform reader = .ok () after) :
      Turn origins reader after
  | next (origin : Origin) (listed : origin ∈ origins) :
      Turn origins reader { table := reader.table, origin }

/-- The states of a session of readers of the given units, which begins with an empty table. -/
inductive Reached (origins : List Origin) : Reader → Prop
  | first (origin : Origin) (listed : origin ∈ origins) : Reached origins { table := ∅, origin }
  | turn {reader after : Reader} (reached : Reached origins reader)
      (turn : Turn origins reader after) : Reached origins after

/-- A session goes on from one state to another and the table holds a key all the while. -/
def Stays (origins : List Origin) (key : Key) : Reader → Reader → Prop :=
  Relation.ReflTransGen fun reader after =>
    Turn origins reader after ∧ after.table.contains key = true

theorem wellKept_finishedTable (kept : table.WellKept origins) (current : Key) :
    (finishedTable table current).WellKept origins := by
  unfold finishedTable
  split
  · exact kept
  · exact wellKept_dropSpurious kept current

/-- What a turn does: the table passes to another reader, a line is taken, or the unit ends. -/
theorem Turn.cases {reader after : Reader} (turn : Turn origins reader after) :
    after.origin ∈ origins ∧ after.table = reader.table ∨
      after.origin = reader.origin ∧
        ((∃ item : Line, item.Sayable ∧ Move reader.origin reader.table reader.current item
            after.table after.current) ∨
          after.table = finishedTable reader.table reader.current) := by
  cases turn with
  | next origin listed => exact .inl ⟨listed, rfl⟩
  | call call _ performed =>
      cases call with
      | feed line =>
          obtain ⟨same, item, read, move⟩ := Reader.move_of_feed performed
          exact .inr ⟨same, .inl ⟨item, ⟨line, read⟩, move⟩⟩
      | finish =>
          obtain ⟨journal, finished⟩ := Reader.finish_run reader
          rw [show Reader.finish reader = .ok () after from performed] at finished
          cases finished
          exact .inr ⟨rfl, .inr rfl⟩

/-- One turn keeps the table as it should be. -/
theorem Turn.wellKept {reader after : Reader} (turn : Turn origins reader after)
    (listed : reader.origin ∈ origins) (kept : reader.table.WellKept origins) :
    after.origin ∈ origins ∧ after.table.WellKept origins := by
  rcases turn.cases with ⟨next, same⟩ | ⟨same, ⟨item, sayable, move⟩ | ended⟩
  · exact ⟨next, same ▸ kept⟩
  · exact ⟨same ▸ listed, move.wellKept sayable listed kept⟩
  · exact ⟨same ▸ listed, ended ▸ wellKept_finishedTable kept _⟩

/-- One turn changes the kind of no symbol that stays. -/
theorem Turn.kind?_eq {reader after : Reader} (turn : Turn origins reader after) {key : Key}
    {kind : Kind} (known : reader.table.kind? key = some kind)
    (stays : after.table.contains key = true) : after.table.kind? key = some kind := by
  rcases turn.cases with ⟨-, same⟩ | ⟨-, ⟨item, -, move⟩ | ended⟩
  · exact same ▸ known
  · exact move.kind?_eq known stays
  · refine Table.kind?_of_kept known (fun record found => ?_) stays
    exact get?_of_finishedTable (ended ▸ found)

theorem Reached.invariant {reader : Reader} (reached : Reached origins reader) :
    reader.origin ∈ origins ∧ reader.table.WellKept origins := by
  induction reached with
  | first origin listed => exact ⟨listed, wellKept_empty origins⟩
  | turn _ turn induction => exact turn.wellKept induction.1 induction.2

theorem Stays.kind?_eq {reader after : Reader} {key : Key} (stays : Stays origins key reader after)
    {kind : Kind} (known : reader.table.kind? key = some kind) :
    after.table.kind? key = some kind := by
  induction stays with
  | refl => exact known
  | tail _ turn induction => exact turn.1.kind?_eq induction turn.2

/-- In every state of a session the table is as its keys tell, and from there on the kind of a
symbol stays as it is while the table holds the key. -/
theorem wellKept_of_reached {reader : Reader} (reached : Reached origins reader) :
    reader.table.WellKept origins ∧
      ∀ key kind after, reader.table.kind? key = some kind → Stays origins key reader after →
        after.table.kind? key = some kind :=
  ⟨reached.invariant.2, fun _ _ _ known stays => stays.kind?_eq known⟩

theorem Reached.calls {reader after : Reader} (reached : Reached origins reader)
    {calls : List Call} (performed : calls.forM Call.perform reader = .ok () after) :
    Reached origins after := by
  induction calls generalizing reader with
  | nil =>
      cases performed
      exact reached
  | cons call calls induction =>
      change (call.perform >>= fun _ => calls.forM Call.perform) reader = _ at performed
      rw [Reader.run_bind] at performed
      cases first : call.perform reader with
      | error error stopped =>
          rw [first] at performed
          cases performed
      | ok _ middle =>
          rw [first] at performed
          exact induction (reached.turn (.call call middle first)) performed

/-- The private `f` of a unit calls the public `g` of another one. -/
def callsOfUser : List Call :=
  [.feed "f/0 (f) @0x0", .feed "  Type: function", .feed "  Visibility:", .feed "  Calls: g/1",
    .feed "g/1 (g) @0x1", .feed "  Type: function", .feed "  Visibility: external public",
    .feed "  Called by: f/0", .finish]

/-- The unit that defines `g`, before it says that `g` is public. -/
def callsOfDefiner : List Call := [.feed "g/0 (g) @0x0", .feed "  Type: function"]

theorem wellKept_userAndDefiner :
    ∃ before after : Reader, Reached ["a", "b"] before ∧
      before.table.keys = ["f@a", "g", "g@b"] ∧ before.table.WellKept ["a", "b"] ∧
      before.table.kind? "g" = some .function ∧ Stays ["a", "b"] "g" before after ∧
      after.table.keys = ["f@a", "g"] ∧ after.table.kind? "g" = some .function := by
  have outcome : (match callsOfUser.forM Call.perform { table := ∅, origin := "a" } with
      | .error _ _ => false
      | .ok _ user =>
          match callsOfDefiner.forM Call.perform { table := user.table, origin := "b" } with
          | .error _ _ => false
          | .ok _ before =>
              match (Call.feed "  Visibility: public").perform before with
              | .error _ _ => false
              | .ok _ after =>
                  before.table.keys == ["f@a", "g", "g@b"] && after.table.keys == ["f@a", "g"] &&
                    before.table.kind? "g" == some .function) = true := by decide +kernel
  split at outcome
  · cases outcome
  · next user read =>
      split at outcome
      · cases outcome
      · next before opened =>
          split at outcome
          · cases outcome
          · next after published =>
              simp only [Bool.and_eq_true, beq_iff_eq] at outcome
              obtain ⟨⟨beforeKeys, afterKeys⟩, known⟩ := outcome
              have first : Reached ["a", "b"] { table := ∅, origin := "a" } :=
                .first "a" (by decide)
              have reached : Reached ["a", "b"] before :=
                ((first.calls read).turn (.next "b" (by decide))).calls opened
              have present : after.table.contains "g" = true := by
                rw [← Table.mem_keys_iff, afterKeys]
                decide
              have stays : Stays ["a", "b"] "g" before after :=
                .single ⟨.call _ after published, present⟩
              obtain ⟨kept, kinds⟩ := wellKept_of_reached reached
              exact ⟨before, after, reached, beforeKeys, kept, known, stays, afterKeys,
                kinds "g" .function after known stays⟩

end Dump

end CallGraph
