import CallGraph.Proofs.Reading.Invariants
import CallGraph.Proofs.Reading.Lines
import CallGraph.Proofs.Resolution.Reciprocity
import CallGraph.Proofs.Violation

/-!
# Tables built from dumps

Whatever dumps are read, as long as their edge lists are free of the separator of private keys,
the resolved table breaks what is expected of it in at most two ways: a symbol whose type was never
read, and a forward edge of a public symbol with exactly one origin that its target does not list
back.
-/

namespace CallGraph

/-- A record as reading leaves it: it has a name and its edges are not private keys. -/
structure Record.Plain (record : Record) : Prop where
  /-- The symbol has a name. -/
  named : record.name ≠ ""
  /-- Edges are bare symbols. -/
  unmarked : ∀ field, ∀ token ∈ record.edges field, Key.isPrivate token = false

namespace Record.Plain

theorem addEdges {record : Record} (plain : record.Plain) (field : EdgeField)
    {tokens : List String} (unmarked : ∀ token ∈ tokens, Key.isPrivate token = false) :
    (record.addEdges field tokens).Plain where
  named := by
    have kept : (record.addEdges field tokens).name = record.name := record.name_withEdges _ _
    rw [kept]
    exact plain.named
  unmarked other token member := by
    rw [edges_addEdges] at member
    split at member
    · rcases mem_union.mp member with old | new
      · exact plain.unmarked field token old
      · exact unmarked token new
    · exact plain.unmarked other token member

theorem absorb {record other : Record} (plain : record.Plain) (otherPlain : other.Plain) :
    (record.absorb other).Plain where
  named := by
    rw [name_eq_of_body (body_absorb record other)]
    exact plain.named
  unmarked field token member := by
    rw [edges_absorb, mem_union] at member
    rcases member with old | new
    · exact plain.unmarked field token old
    · exact otherPlain.unmarked field token new

/-- Changes to the rest of a record keep it plain. -/
theorem of_edges {record changed : Record} (plain : record.Plain) (name : changed.name ≠ "")
    (edges : ∀ field, changed.edges field = record.edges field) : changed.Plain where
  named := name
  unmarked field token member := plain.unmarked field token (edges field ▸ member)

end Record.Plain

/-- Every record is plain. -/
def Table.Plain (table : Table) : Prop :=
  ∀ key record, table.get? key = some record → record.Plain

theorem Table.Plain.raw {table : Table} (plain : table.Plain) : table.Raw := by
  intro key field token member
  obtain ⟨record, found, listed⟩ := mem_edgesOf_iff.mp member
  exact (plain key record found).unmarked field token listed

namespace Dump

/-- A line brings no private key into the table as an edge. -/
def Line.Unmarked (item : Line) : Prop :=
  ∀ field value, item = .field (.edges field) value → Key.separator ∉ value.toList

/-- Lines keep every record plain. -/
theorem upholds_plain (origin : Origin) :
    Upholds (fun item => item.Unmarked ∧ ∀ header, item = .header header → header.name ≠ "")
      origin (fun _ record => record.Plain) fun _ => True where
  opened header sayable stored plain := by
    have named := sayable.2 header rfl
    cases stored with
    | none =>
        refine ⟨named, fun field token member => ?_⟩
        cases field <;> cases member
    | some record =>
        refine (plain record rfl).of_edges named fun field => ?_
        cases field <;> rfl
  typed _ record kind plain := plain.of_edges plain.named fun field => by cases field <;> rfl
  hidden _ record _ plain := plain.of_edges plain.named fun field => by cases field <;> rfl
  published _ record external plain :=
    plain.of_edges plain.named fun field => by cases field <;> rfl
  absorbed _ _ _ plain otherPlain := plain.absorb otherPlain
  listed _ _ field value sayable plain :=
    plain.addEdges field fun _ member =>
      isPrivate_of_mem_edgeTokens (sayable.1 field value rfl) member
  known _ _ _ _ _ := trivial

theorem readUnitsInto_plain {table after : Table} {units : List (Origin × List String)}
    (read : readUnitsInto table units = .ok after)
    (unmarked : ∀ unit ∈ units, ∀ line ∈ unit.2, ∀ item,
      readLine line = .ok item → item.Unmarked)
    (plain : table.Plain) : after.Plain := by
  have satisfies : table.Satisfies (fun _ record => record.Plain) fun _ => True :=
    ⟨plain, fun _ _ _ => trivial⟩
  refine (satisfies_of_readUnitsInto read (fun unit _ => upholds_plain unit.1) ?_ satisfies).records
  intro unit member line lineMember item lineRead
  refine ⟨unmarked unit member line lineMember item lineRead, ?_⟩
  rintro header rfl
  exact (header_of_readLine lineRead).2.1

end Dump

/-! ## What holds of every built table -/

/-- The edges of a table and their inverses, as far as building a table settles them. -/
structure Table.Linked (table : Table) : Prop where
  /-- Every record has an edge. -/
  connected : ∀ key record, table.get? key = some record → record.hasEdges = true
  /-- No list of edges repeats a member. -/
  distinct : ∀ key record, table.get? key = some record →
    ∀ field, (record.edges field).Nodup
  /-- Every edge leads to a record. -/
  closed : ∀ key record, table.get? key = some record →
    ∀ field, ∀ target ∈ record.edges field, table.contains target = true
  /-- Every backward edge is answered. -/
  backward : ∀ key record, table.get? key = some record →
    ∀ field, field.isForward = false → ∀ target ∈ record.edges field,
      key ∈ table.edgesOf target field.inverse
  /-- Every forward edge of a private symbol, or of one with several origins, is answered. -/
  forward : ∀ key record, table.get? key = some record →
    Key.isPrivate key = true ∨ 2 ≤ record.origins.length →
    ∀ field, field.isForward = true → ∀ target ∈ record.edges field,
      key ∈ table.edgesOf target field.inverse

/-- The breaches that a built table may show: a missing type, and a forward edge of a public
symbol with exactly one origin. -/
def Violation.Tolerated (table : Table) : Violation → Prop
  | untyped _ => True
  | unanswered key field _ =>
      field.isForward = true ∧ Key.isPrivate key = false ∧
        ∃ record, table.get? key = some record ∧ record.origins.length = 1
  | _ => False

theorem Table.Raw.linked_resolve {table : Table} (raw : table.Raw) : table.resolve.Linked where
  connected _ _ found := hasEdges_of_sweep found
  distinct key _ found field := edgesOf_eq found field ▸ table.nodup_resolve key field
  closed key _ found field target member := by
    rw [← edgesOf_eq found] at member
    exact raw.contains_of_resolve member
  backward key _ found field backward target member := by
    rw [← edgesOf_eq found] at member
    exact raw.backward_answered backward member
  forward key _ found exempt field forward target member := by
    rw [← edgesOf_eq found] at member
    exact forward_answered forward found exempt member

theorem Table.Plain.tolerated_resolve {table : Table} (plain : table.Plain)
    {violation : Violation} (reported : violation ∈ table.resolve.violations) :
    violation.Tolerated table.resolve := by
  have linked := plain.raw.linked_resolve
  obtain ⟨record, found, fault⟩ := mem_violations_iff.mp reported
  cases violation with
  | unnamed key =>
      obtain ⟨old, oldFound, sameBody⟩ := body_of_resolve found
      rw [get?_restoreOrigins] at oldFound
      obtain ⟨stored, present, rfl⟩ := Option.map_eq_some_iff.mp oldFound
      have name : record.name = stored.name := (Record.name_eq_of_body sameBody).trans rfl
      exact (plain key stored present).named (name ▸ fault)
  | untyped key => trivial
  | spurious key =>
      have connected := linked.connected key record found
      rw [show record.hasEdges = false from fault] at connected
      cases connected
  | repeats key field => exact fault (linked.distinct key record found field)
  | dangling key field target =>
      have closed := linked.closed key record found field target fault.1
      rw [fault.2] at closed
      cases closed
  | unanswered key field target =>
      obtain ⟨member, -, silent⟩ := fault
      have forward : field.isForward = true := by
        cases direction : field.isForward with
        | true => rfl
        | false =>
            exact absurd (linked.backward key record found field direction target member) silent
      have single : ¬ (Key.isPrivate key = true ∨ 2 ≤ record.origins.length) := fun exempt =>
        silent (linked.forward key record found exempt field forward target member)
      rw [not_or] at single
      have declared : record.origins ≠ [] :=
        origins_ne_nil_of_forward forward found (edgesOf_eq found field ▸ member)
      have positive := List.length_pos_iff.mpr declared
      exact ⟨forward, by simpa using single.1, record, found, by omega⟩

namespace Dump

/-- Dumps whose edge lists are free of the separator build a table whose edges and inverses agree,
except for the two breaches that are tolerated. -/
theorem linked_of_readUnitsInto {units : List (Origin × List String)} {table : Table}
    (read : readUnitsInto ∅ units = .ok table)
    (unmarked : ∀ unit ∈ units, ∀ line ∈ unit.2, ∀ field value,
      readLine line = .ok (.field (.edges field) value) → Key.separator ∉ value.toList) :
    table.resolve.Linked ∧
      ∀ violation ∈ table.resolve.violations, violation.Tolerated table.resolve := by
  have plain : table.Plain := by
    refine readUnitsInto_plain read ?_ (fun key record found => by cases found)
    rintro unit member line lineMember item lineRead field value rfl
    exact unmarked unit member line lineMember field value lineRead
  exact ⟨plain.raw.linked_resolve, fun violation reported => plain.tolerated_resolve reported⟩

/-- A unit whose private `f` calls the public `g`, and the unit that defines `g`. -/
def callerAndCallee : List (Origin × List String) :=
  [("a",
      ["g/1 (g) @0x1", "  Type: function", "  Visibility: external public", "  Called by: f/0",
        "f/0 (f) @0x0", "  Type: function", "  Visibility:", "  Calls: g/1 (once)"]),
    ("b",
      ["g/0 (g) @0x0", "  Type: function", "  Visibility: public", "  References: v/1",
        "v/1 (v) @0x1", "  Type: variable", "  Visibility:", "  Referring: g/0"])]

/-- The line is of an edge list, and its value has the separator. -/
def hasMarkedEdge (line : String) : Bool :=
  match readLine line with
  | .ok (.field (.edges _) value) => Key.isPrivate value
  | _ => false

theorem linked_callerAndCallee :
    ∃ table, readUnitsInto ∅ callerAndCallee = .ok table ∧
      table.resolve.keys = ["g", "f@a", "v@b"] ∧ table.resolve.Linked ∧
      ∀ violation ∈ table.resolve.violations, violation.Tolerated table.resolve := by
  have keys : (readUnitsInto ∅ callerAndCallee).toOption.map (·.resolve.keys) =
      some ["g", "f@a", "v@b"] := by decide +kernel
  have plain : ∀ unit ∈ callerAndCallee, ∀ line ∈ unit.2, hasMarkedEdge line = false := by
    decide +kernel
  cases read : readUnitsInto ∅ callerAndCallee with
  | error error => simp [read, Except.toOption] at keys
  | ok table =>
      refine ⟨table, rfl, by simpa [read, Except.toOption] using keys,
        linked_of_readUnitsInto read ?_⟩
      intro unit member line lineMember field value lineRead separator
      have unmarked := plain unit member line lineMember
      simp [hasMarkedEdge, lineRead, Key.isPrivate, separator] at unmarked

end Dump

end CallGraph
