import CallGraph.Proofs.Linking

/-!
# The order of the units

Units can be read in any order.  A public symbol without edges is dropped when its block comes
first and joined to a record when it comes later, but its origin is known in the end, and after
resolution the tables differ in the order of their keys and lists only.
-/

namespace CallGraph

namespace Table

/-! ## Tables that differ in their order -/

/-- Tables with the same keys, the same edges and origins in whatever order, and the same kinds and
visibilities. -/
structure SameGraph (left right : Table) : Prop where
  /-- They have the same keys. -/
  keys : ∀ key, left.contains key = right.contains key
  /-- The records of a key agree on kind and visibility. -/
  sorts : ∀ key record other, left.get? key = some record → right.get? key = some other →
    record.kind = other.kind ∧ record.visibility = other.visibility
  /-- They have the same origins. -/
  origins : ∀ key record other, left.get? key = some record → right.get? key = some other →
    record.origins.Perm other.origins
  /-- They have the same edges. -/
  edges : ∀ key field token, token ∈ left.edgesOf key field ↔ token ∈ right.edgesOf key field

namespace SameGraph

variable {left right : Table}

theorem symm (same : SameGraph left right) : SameGraph right left where
  keys key := (same.keys key).symm
  sorts key record other found otherFound := by
    obtain ⟨kinds, visibilities⟩ := same.sorts key other record otherFound found
    exact ⟨kinds.symm, visibilities.symm⟩
  origins key record other found otherFound :=
    (same.origins key other record otherFound found).symm
  edges key field token := (same.edges key field token).symm

theorem mem_targets (same : SameGraph left right) {key target : Key} {field : EdgeField}
    (linked : target ∈ left.targets key field) : target ∈ right.targets key field := by
  obtain ⟨record, found, ⟨token, listed, origin, declared, denotes⟩, present, answers⟩ :=
    mem_targets_iff.mp linked
  have present' : right.contains key = true := by
    rw [← same.keys]
    exact (left.contains_iff key).mpr ⟨record, found⟩
  obtain ⟨other, otherFound⟩ := (right.contains_iff key).mp present'
  have origins := same.origins key record other found otherFound
  refine mem_targets_iff.mpr ⟨other, otherFound, ⟨token, ?_, origin, ?_, ?_⟩, ?_, ?_⟩
  · rw [← edgesOf_eq otherFound, ← same.edges, edgesOf_eq found]
    exact listed
  · exact origins.mem_iff.mp declared
  · rw [← denotation_congr same.keys]
    exact denotes
  · rw [← same.keys]
    exact present
  · rw [← origins.length_eq, ← same.edges]
    exact answers

theorem mem_targets_iff (same : SameGraph left right) {key target : Key} {field : EdgeField} :
    target ∈ left.targets key field ↔ target ∈ right.targets key field :=
  ⟨same.mem_targets, same.symm.mem_targets⟩

/-- Records with the bodies of tables that agree do so. -/
theorem of_body {before after : Table} (same : SameGraph before after)
    (leftBody : ∀ key record, left.get? key = some record →
      ∃ old, before.get? key = some old ∧ record.body = old.body)
    (rightBody : ∀ key record, right.get? key = some record →
      ∃ old, after.get? key = some old ∧ record.body = old.body)
    (keys : ∀ key, left.contains key = right.contains key)
    (edges : ∀ key field token,
      token ∈ left.edgesOf key field ↔ token ∈ right.edgesOf key field) :
    SameGraph left right where
  keys := keys
  sorts key record other found otherFound := by
    obtain ⟨old, oldFound, body⟩ := leftBody key record found
    obtain ⟨older, olderFound, otherBody⟩ := rightBody key other otherFound
    obtain ⟨kinds, visibilities⟩ := same.sorts key old older oldFound olderFound
    rw [Record.kind_eq_of_body body, Record.kind_eq_of_body otherBody,
      Record.visibility_eq_of_body body, Record.visibility_eq_of_body otherBody]
    exact ⟨kinds, visibilities⟩
  origins key record other found otherFound := by
    obtain ⟨old, oldFound, body⟩ := leftBody key record found
    obtain ⟨older, olderFound, otherBody⟩ := rightBody key other otherFound
    rw [Record.origins_eq_of_body body, Record.origins_eq_of_body otherBody]
    exact same.origins key old older oldFound olderFound
  edges := edges

theorem linkFields (same : SameGraph left.restoreOrigins right.restoreOrigins) :
    SameGraph left.linkFields right.linkFields := by
  apply same.of_body (fun _ _ => body_of_linkFields) (fun _ _ => body_of_linkFields)
  · intro key
    rw [contains_linkFields, contains_linkFields, same.keys]
  · intro key field token
    cases direction : field.isForward with
    | true =>
        rw [edgesOf_linkFields_forward _ _ direction, edgesOf_linkFields_forward _ _ direction,
          same.mem_targets_iff]
    | false =>
        have forward : field.inverse.isForward = true := by
          rw [EdgeField.isForward_inverse, direction]
          rfl
        rw [← EdgeField.inverse_inverse field, mem_linkFields_backward _ _ _ forward,
          mem_linkFields_backward _ _ _ forward, same.edges, same.mem_targets_iff]

/-- Keys that stay in one table hold each other up in the other. -/
theorem contains_sweep (same : SameGraph left right) (distinct : left.EdgesDistinct)
    (otherDistinct : right.EdgesDistinct) {key : Key}
    (stays : left.sweep.1.contains key = true) : right.sweep.1.contains key = true := by
  have swept := sweptTo_sweep distinct
  have supported : right.Supported fun key => left.sweep.1.contains key = true := by
    constructor
    · intro own ownStays
      rw [← same.keys]
      exact swept.contains ownStays
    · intro own ownStays
      obtain ⟨record, found⟩ := (contains_iff _ own).mp ownStays
      obtain ⟨field, target, listed⟩ := (Record.hasEdges_iff record).mp (hasEdges_of_sweep found)
      rw [← edgesOf_eq found] at listed
      obtain ⟨-, edge, targetStays⟩ := swept.mem_edgesOf_iff.mp listed
      refine ⟨field, target, (same.edges own field target).mp edge, ?_⟩
      rw [← same.keys]
      by_cases present : left.contains target = true
      · exact .inl (targetStays present)
      · exact .inr present
  exact supported.contains_sweep otherDistinct stays

theorem sweep (same : SameGraph left right) (distinct : left.EdgesDistinct)
    (otherDistinct : right.EdgesDistinct) : SameGraph left.sweep.1 right.sweep.1 := by
  have swept := sweptTo_sweep distinct
  have otherSwept := sweptTo_sweep otherDistinct
  have keys : ∀ key, left.sweep.1.contains key = right.sweep.1.contains key := by
    intro key
    rw [Bool.eq_iff_iff]
    exact ⟨same.contains_sweep distinct otherDistinct,
      same.symm.contains_sweep otherDistinct distinct⟩
  apply same.of_body swept.body otherSwept.body keys
  intro key field token
  rw [swept.mem_edgesOf_iff, otherSwept.mem_edgesOf_iff, keys, keys, same.keys, same.edges]

/-- Resolution keeps tables alike. -/
theorem resolve (same : SameGraph left.restoreOrigins right.restoreOrigins) :
    SameGraph left.resolve right.resolve :=
  same.linkFields.sweep left.edgesDistinct_linkFields right.edgesDistinct_linkFields

end SameGraph

end Table

namespace Dump

/-! ## Units in another order -/

theorem declarations_perm {units others : List Listing} (reordered : units.Perm others) :
    (declarations units).Perm (declarations others) :=
  reordered.flatMap_right _

theorem Compatible.perm {units others : List Listing} (compatible : Compatible units)
    (reordered : units.Perm others) : Compatible others where
  origins := (reordered.map Listing.origin).nodup_iff.mp compatible.origins
  symbols unit member := compatible.symbols unit (reordered.mem_iff.mpr member)
  typed unit member := compatible.typed unit (reordered.mem_iff.mpr member)
  coherent unit member := compatible.coherent unit (reordered.mem_iff.mpr member)
  agree left leftMember right rightMember :=
    compatible.agree left ((declarations_perm reordered).mem_iff.mpr leftMember) right
      ((declarations_perm reordered).mem_iff.mpr rightMember)

theorem Declares.perm {blocks others : List (Origin × Block)} (reordered : blocks.Perm others)
    {key : Key} {origin : Origin} {block : Block} (declares : Declares blocks key origin block) :
    Declares others key origin block :=
  ⟨reordered.mem_iff.mp declares.listed, declares.genuine, declares.keyed⟩

/-- The blocks of a key agree on kind and visibility. -/
theorem Orderly.agree_of_key {blocks : List (Origin × Block)} (orderly : Orderly blocks)
    {key : Key} {origin elsewhere : Origin} {block other : Block}
    (declares : Declares blocks key origin block)
    (otherDeclares : Declares blocks key elsewhere other) :
    block.kind = other.kind ∧ block.audience = other.audience := by
  have keyed := declares.keyed.trans otherDeclares.keyed.symm
  cases marked : Key.isPrivate key with
  | true =>
      obtain ⟨-, rfl⟩ := orderly.eq_of_key declares.listed otherDeclares.listed keyed
        (.inr (declares.keyed ▸ marked))
      exact ⟨rfl, rfl⟩
  | false =>
      obtain ⟨exported, symbol⟩ :=
        (orderly.sound _ declares.listed).eq_of_unmarked marked declares.keyed
      obtain ⟨otherExported, otherSymbol⟩ :=
        (orderly.sound _ otherDeclares.listed).eq_of_unmarked marked otherDeclares.keyed
      refine ⟨orderly.agree _ declares.listed _ otherDeclares.listed exported otherExported
        (symbol.trans otherSymbol.symm), ?_⟩
      rw [Block.audience, Block.audience, exported, otherExported]

/-- Tables that know the same blocks are alike once the origins of dropped symbols are restored. -/
theorem Reflects.sameGraph {blocks others : List (Origin × Block)} {left right : Table}
    (reflects : Reflects blocks left) (otherReflects : Reflects others right)
    (orderly : Orderly blocks) (otherOrderly : Orderly others)
    (reordered : blocks.Perm others) :
    Table.SameGraph left.restoreOrigins right.restoreOrigins where
  keys key := by
    rw [Bool.eq_iff_iff, Table.contains_restoreOrigins, Table.contains_restoreOrigins,
      reflects.contains_iff, otherReflects.contains_iff]
    constructor
    · rintro ⟨origin, block, declares, lists⟩
      exact ⟨origin, block, declares.perm reordered, lists⟩
    · rintro ⟨origin, block, declares, lists⟩
      exact ⟨origin, block, declares.perm reordered.symm, lists⟩
  sorts key record other found otherFound := by
    rw [Table.get?_restoreOrigins] at found otherFound
    obtain ⟨stored, present, rfl⟩ := Option.map_eq_some_iff.mp found
    obtain ⟨otherStored, otherPresent, rfl⟩ := Option.map_eq_some_iff.mp otherFound
    obtain ⟨origin, block, declares, kind, visibility⟩ := reflects.declared key stored present
    obtain ⟨elsewhere, otherBlock, otherDeclares, otherKind, otherVisibility⟩ :=
      otherReflects.declared key otherStored otherPresent
    obtain ⟨kinds, audiences⟩ :=
      orderly.agree_of_key declares (otherDeclares.perm reordered.symm)
    change stored.kind = otherStored.kind ∧ stored.visibility = otherStored.visibility
    rw [kind, otherKind, visibility, otherVisibility, kinds, audiences]
    exact ⟨rfl, rfl⟩
  origins key record other found otherFound :=
    (reflects.origins_perm orderly found).trans
      (((reordered.filter _).map Prod.fst).trans
        (otherReflects.origins_perm otherOrderly otherFound).symm)
  edges key field token := by
    rw [Table.edgesOf_restoreOrigins, Table.edgesOf_restoreOrigins, reflects.edges,
      otherReflects.edges]
    constructor
    · rintro ⟨origin, block, declares, lists⟩
      exact ⟨origin, block, declares.perm reordered, lists⟩
    · rintro ⟨origin, block, declares, lists⟩
      exact ⟨origin, block, declares.perm reordered.symm, lists⟩

/-- Compatible units are read in any order, and the resolved tables have the same keys, kinds,
visibilities, origins and edges. -/
theorem sameGraph_of_perm {units others : List Listing} (compatible : Compatible units)
    (reordered : units.Perm others) :
    ∃ left right,
      readUnitsInto ∅ (units.map fun unit => (unit.origin, unit.lines)) = .ok left ∧
      readUnitsInto ∅ (others.map fun unit => (unit.origin, unit.lines)) = .ok right ∧
      Table.SameGraph left.resolve right.resolve := by
  have orderly := compatible.orderly
  have otherOrderly := (compatible.perm reordered).orderly
  obtain ⟨left, read, reflects⟩ := Reflects.empty.readUnits (by simpa using orderly)
  obtain ⟨right, otherRead, otherReflects⟩ :=
    Reflects.empty.readUnits (by simpa using otherOrderly)
  rw [List.nil_append] at reflects otherReflects
  exact ⟨left, right, read, otherRead, Table.SameGraph.resolve
    (reflects.sameGraph otherReflects orderly otherOrderly (declarations_perm reordered))⟩

/-- Two units: the first uses `B`, which the second defines without listing an edge. -/
def userAndDefiner : List Listing :=
  [.ofBlocks "a"
      ["A/0 (A) @0x0", "  Type: function", "  Visibility: public", "  Calls: B/1",
        "B/1 (B) @0x1", "  Type: function", "  Visibility: external public", "  Called by: A/0",
        "C/2 (C) @0x2", "  Type: variable", "  Visibility: artificial", "  References: A/0"]
      [⟨⟨"A", "A", "0"⟩, "function", "public", [(.calls, "B/1")]⟩,
        ⟨⟨"B", "B", "1"⟩, "function", "external public", [(.calledBy, "A/0")]⟩,
        ⟨⟨"C", "C", "2"⟩, "variable", "artificial", [(.references, "A/0")]⟩]
      (by decide +kernel),
    .ofBlocks "b"
      ["B/0 (B) @0x0", "  Type: function", "  Visibility: public"]
      [⟨⟨"B", "B", "0"⟩, "function", "public", []⟩]
      (by decide +kernel)]

theorem sameGraph_userAndDefiner :
    ∃ left right,
      readUnitsInto ∅ (userAndDefiner.map fun unit => (unit.origin, unit.lines)) = .ok left ∧
      readUnitsInto ∅ (userAndDefiner.reverse.map fun unit => (unit.origin, unit.lines)) =
        .ok right ∧
      Table.SameGraph left.resolve right.resolve :=
  sameGraph_of_perm (by decide +kernel) (List.reverse_perm _).symm

end Dump

end CallGraph
