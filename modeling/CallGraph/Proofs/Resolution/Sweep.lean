import CallGraph.Proofs.Resolution.Backward

/-!
# Sweeping records without edges

A round of the sweep takes away the records without edges and the edges to them, which may leave
other records without edges.  `sweep_induction` is the induction over the rounds; from what one
round does it gives what the whole sweep does: every record that stays has an edge, its lists are
the old ones without the removed keys, and a set of keys that hold each other up stays.
-/

namespace CallGraph

/-- A list of edges without those to the given keys; it is read anew only if one of them is
there. -/
def withoutGone (gone keys : List Key) : List Key :=
  if keys.any gone.contains then distinctMembers (keys.filter fun key => !gone.contains key)
  else keys

theorem withoutGone_eq_filter {keys : List Key} (distinct : keys.Nodup) (gone : List Key) :
    withoutGone gone keys = keys.filter fun key => !gone.contains key := by
  unfold withoutGone
  split
  · exact distinctMembers_eq_self (distinct.filter _)
  · next untouched =>
      symm
      rw [List.filter_eq_self]
      intro key member
      have clear := List.any_eq_false.mp (Bool.eq_false_iff.mpr untouched) key member
      simpa using clear

namespace Record

/-- One field without its edges to the given keys. -/
def clearField (gone : List Key) (record : Record) (field : EdgeField) : Record :=
  if (record.edges field).any gone.contains then
    record.setEdges field ((record.edges field).filter fun key => !gone.contains key)
  else record

theorem clearField_eq (gone : List Key) (record : Record) (field : EdgeField) :
    record.clearField gone field =
      record.withEdges field (withoutGone gone (record.edges field)) := by
  unfold clearField withoutGone setEdges
  split
  · rfl
  · rw [withEdges_edges]

theorem edges_foldl_clearField (gone : List Key) (fields : List EdgeField)
    (distinct : fields.Nodup) (record : Record) (field : EdgeField) :
    (fields.foldl (clearField gone) record).edges field =
      if field ∈ fields then withoutGone gone (record.edges field) else record.edges field := by
  induction fields generalizing record with
  | nil => rfl
  | cons head fields induction =>
      rw [List.nodup_cons] at distinct
      rw [List.foldl_cons, induction distinct.2, clearField_eq, edges_withEdges]
      by_cases same : field = head
      · subst same
        simp [distinct.1]
      · simp [same]

theorem body_foldl_clearField (gone : List Key) (fields : List EdgeField) (record : Record) :
    (fields.foldl (clearField gone) record).body = record.body := by
  induction fields generalizing record with
  | nil => rfl
  | cons head fields induction =>
      rw [List.foldl_cons, induction, clearField_eq, body_withEdges]

theorem edges_withoutEdgesTo (gone : List Key) (record : Record) (field : EdgeField) :
    (record.withoutEdgesTo gone).edges field = withoutGone gone (record.edges field) := by
  have cleared := edges_foldl_clearField gone EdgeField.all (by decide) record field
  rw [if_pos (EdgeField.mem_all field)] at cleared
  exact cleared

theorem body_withoutEdgesTo (gone : List Key) (record : Record) :
    (record.withoutEdgesTo gone).body = record.body :=
  body_foldl_clearField gone EdgeField.all record

end Record

namespace Table

/-! ## One round -/

theorem mem_spuriousKeys_iff {table : Table} {key : Key} :
    key ∈ table.spuriousKeys ↔
      ∃ record, table.get? key = some record ∧ ¬ record.hasEdges = true := by
  simp only [spuriousKeys, List.mem_map, List.mem_filter, Prod.exists, exists_and_right,
    exists_eq_right, mem_entries_iff, Bool.not_eq_true', Bool.not_eq_true]

theorem get?_sweepRound (table : Table) (gone : List Key) (key : Key) :
    (table.sweepRound gone).get? key =
      ((table.get? key).filter Record.hasEdges).map (·.withoutEdgesTo gone) := by
  change ((table.records.filter fun _ record => record.hasEdges).mapValues
    fun _ record => record.withoutEdgesTo gone).get? key = _
  rw [KeyMap.get?_mapValues, KeyMap.get?_filter]
  rfl

/-- No list of edges of the table repeats a member. -/
def EdgesDistinct (table : Table) : Prop :=
  ∀ key field, (table.edgesOf key field).Nodup

theorem contains_sweepRound_iff (table : Table) (key : Key) :
    (table.sweepRound table.spuriousKeys).contains key = true ↔
      table.contains key = true ∧ key ∉ table.spuriousKeys := by
  rw [contains_iff, contains_iff, mem_spuriousKeys_iff, get?_sweepRound]
  cases table.get? key with
  | none => simp
  | some record =>
      cases linked : record.hasEdges with
      | true => simp [Option.filter, linked]
      | false => simp [Option.filter, linked]

theorem edgesOf_sweepRound {table : Table} (distinct : table.EdgesDistinct) {key : Key}
    (stays : (table.sweepRound table.spuriousKeys).contains key = true) (field : EdgeField) :
    (table.sweepRound table.spuriousKeys).edgesOf key field =
      (table.edgesOf key field).filter fun target => !table.spuriousKeys.contains target := by
  obtain ⟨record, found⟩ := ((table.sweepRound _).contains_iff key).mp stays
  rw [edgesOf_eq found]
  rw [get?_sweepRound] at found
  obtain ⟨old, kept, rfl⟩ := Option.map_eq_some_iff.mp found
  obtain ⟨present, -⟩ := Option.filter_eq_some_iff.mp kept
  have oldDistinct := distinct key field
  rw [edgesOf_eq present] at oldDistinct ⊢
  rw [Record.edges_withoutEdgesTo, withoutGone_eq_filter oldDistinct]

theorem edgesDistinct_sweepRound {table : Table} (distinct : table.EdgesDistinct) :
    (table.sweepRound table.spuriousKeys).EdgesDistinct := by
  intro key field
  by_cases stays : (table.sweepRound table.spuriousKeys).contains key = true
  · rw [edgesOf_sweepRound distinct stays]
    exact (distinct key field).filter _
  · rw [edgesOf_of_absent stays]
    exact List.nodup_nil

/-! ## All rounds -/

theorem sweep_of_settled {table : Table} (settled : table.spuriousKeys = []) :
    table.sweep.1 = table := by
  rw [sweep, dif_pos settled]

theorem sweep_of_round {table : Table} (unsettled : table.spuriousKeys ≠ []) :
    table.sweep.1 = (table.sweepRound table.spuriousKeys).sweep.1 := by
  rw [sweep, dif_neg unsettled]

/-- Induction over the rounds of a sweep. -/
theorem sweep_induction {motive : Table → Table → Prop}
    (settled : ∀ table, table.spuriousKeys = [] → motive table table)
    (round : ∀ table final, table.spuriousKeys ≠ [] →
      motive (table.sweepRound table.spuriousKeys) final → motive table final)
    (table : Table) : motive table table.sweep.1 := by
  by_cases done : table.spuriousKeys = []
  · rw [sweep_of_settled done]
    exact settled table done
  · rw [sweep_of_round done]
    exact round table _ done
      (sweep_induction settled round (table.sweepRound table.spuriousKeys))
termination_by table.size
decreasing_by exact size_sweepRound_lt table _ done

/-- After the sweep every record has an edge. -/
theorem hasEdges_of_sweep {table : Table} {key : Key} {record : Record}
    (found : table.sweep.1.get? key = some record) : record.hasEdges = true := by
  refine sweep_induction (motive := fun _ final =>
    final.get? key = some record → record.hasEdges = true) ?_ ?_ table found
  · intro table settled present
    cases linked : record.hasEdges with
    | true => rfl
    | false =>
        have listed : key ∈ table.spuriousKeys :=
          mem_spuriousKeys_iff.mpr ⟨record, present, by simp [linked]⟩
        simp [settled] at listed
  · intro _ _ _ induction present
    exact induction present

/-- What a sweep makes of a table: records go as a whole, and the edges to them go. -/
structure SweptTo (table final : Table) : Prop where
  /-- A record that stays is still about the same symbol. -/
  body : ∀ key record, final.get? key = some record →
    ∃ old, table.get? key = some old ∧ record.body = old.body
  /-- Its lists are the old ones without the removed keys. -/
  edges : ∀ key field, final.contains key = true →
    final.edgesOf key field =
      (table.edgesOf key field).filter fun target =>
        !table.contains target || final.contains target

theorem SweptTo.contains {table final : Table} (swept : SweptTo table final) {key : Key}
    (stays : final.contains key = true) : table.contains key = true := by
  obtain ⟨record, found⟩ := (final.contains_iff key).mp stays
  obtain ⟨old, present, -⟩ := swept.body key record found
  exact (table.contains_iff key).mpr ⟨old, present⟩

theorem SweptTo.mem_edgesOf_iff {table final : Table} (swept : SweptTo table final)
    {key target : Key} {field : EdgeField} :
    target ∈ final.edgesOf key field ↔
      final.contains key = true ∧ target ∈ table.edgesOf key field ∧
        (table.contains target = true → final.contains target = true) := by
  constructor
  · intro member
    have stays := contains_of_mem_edgesOf member
    rw [swept.edges key field stays, List.mem_filter] at member
    refine ⟨stays, member.1, fun present => ?_⟩
    simpa [present] using member.2
  · rintro ⟨stays, member, targetStays⟩
    rw [swept.edges key field stays, List.mem_filter]
    refine ⟨member, ?_⟩
    cases present : table.contains target with
    | false => rfl
    | true => simp [targetStays present]

theorem sweptTo_refl (table : Table) : SweptTo table table where
  body _ record found := ⟨record, found, rfl⟩
  edges key field _ := by
    symm
    rw [List.filter_eq_self]
    intro target _
    cases table.contains target <;> rfl

/-- A round followed by the later rounds. -/
theorem SweptTo.of_round {table final : Table} (distinct : table.EdgesDistinct)
    (later : SweptTo (table.sweepRound table.spuriousKeys) final) : SweptTo table final where
  body key record found := by
    obtain ⟨middle, present, sameBody⟩ := later.body key record found
    rw [get?_sweepRound] at present
    obtain ⟨old, kept, rfl⟩ := Option.map_eq_some_iff.mp present
    refine ⟨old, (Option.filter_eq_some_iff.mp kept).1, ?_⟩
    rw [sameBody, Record.body_withoutEdgesTo]
  edges key field stays := by
    rw [later.edges key field stays, edgesOf_sweepRound distinct (later.contains stays),
      List.filter_filter]
    apply List.filter_congr
    intro target _
    have middle := table.contains_sweepRound_iff target
    have fromMiddle : final.contains target = true →
        (table.sweepRound table.spuriousKeys).contains target = true := later.contains
    have spuriousPresent : target ∈ table.spuriousKeys → table.contains target = true := by
      intro listed
      obtain ⟨record, found, -⟩ := mem_spuriousKeys_iff.mp listed
      exact (table.contains_iff target).mpr ⟨record, found⟩
    rw [Bool.eq_iff_iff]
    simp only [Bool.and_eq_true, Bool.or_eq_true, Bool.not_eq_true', List.contains_eq_mem,
      ← Bool.not_eq_true]
    grind

/-- The sweep of a table whose lists repeat nothing. -/
theorem sweptTo_sweep {table : Table} (distinct : table.EdgesDistinct) :
    SweptTo table table.sweep.1 := by
  refine sweep_induction (motive := fun table final =>
    table.EdgesDistinct → SweptTo table final) ?_ ?_ table distinct
  · intro table _ _
    exact sweptTo_refl table
  · intro table final _ induction distinct
    exact (induction (edgesDistinct_sweepRound distinct)).of_round distinct

/-- Keys hold each other up when each of them has an edge to one of them, or to a key that is not
in the table at all. -/
structure Supported (table : Table) (group : Key → Prop) : Prop where
  /-- They are keys of the table. -/
  present : ∀ key, group key → table.contains key = true
  /-- Each of them has an edge that does not depend on others. -/
  held : ∀ key, group key → ∃ field, ∃ target ∈ table.edgesOf key field,
    group target ∨ ¬ table.contains target = true

theorem Supported.not_spurious {table : Table} {group : Key → Prop}
    (supported : table.Supported group) {key : Key} (member : group key) :
    key ∉ table.spuriousKeys := by
  intro listed
  obtain ⟨record, found, unlinked⟩ := mem_spuriousKeys_iff.mp listed
  obtain ⟨field, target, edge, -⟩ := supported.held key member
  rw [edgesOf_eq found] at edge
  exact unlinked ((Record.hasEdges_iff record).mpr ⟨field, target, edge⟩)

theorem Supported.sweepRound {table : Table} {group : Key → Prop}
    (supported : table.Supported group) (distinct : table.EdgesDistinct) :
    (table.sweepRound table.spuriousKeys).Supported group := by
  have stays : ∀ key, group key →
      (table.sweepRound table.spuriousKeys).contains key = true := fun key member =>
    (table.contains_sweepRound_iff key).mpr
      ⟨supported.present key member, supported.not_spurious member⟩
  refine ⟨stays, fun key member => ?_⟩
  obtain ⟨field, target, edge, held⟩ := supported.held key member
  refine ⟨field, target, ?_, held.imp_right fun absent still =>
    absent ((table.contains_sweepRound_iff target).mp still).1⟩
  rw [edgesOf_sweepRound distinct (stays key member), List.mem_filter]
  have notSpurious : target ∉ table.spuriousKeys := by
    rcases held with inside | absent
    · exact supported.not_spurious inside
    · intro listed
      obtain ⟨record, found, -⟩ := mem_spuriousKeys_iff.mp listed
      exact absent ((table.contains_iff target).mpr ⟨record, found⟩)
  exact ⟨edge, by simpa using notSpurious⟩

/-- Keys that hold each other up stay. -/
theorem Supported.contains_sweep {table : Table} {group : Key → Prop}
    (supported : table.Supported group) (distinct : table.EdgesDistinct) {key : Key}
    (member : group key) : table.sweep.1.contains key = true := by
  refine sweep_induction (motive := fun table final =>
    table.EdgesDistinct → table.Supported group → final.contains key = true) ?_ ?_ table
    distinct supported
  · intro table _ _ supported
    exact supported.present key member
  · intro table final _ induction distinct supported
    exact induction (edgesDistinct_sweepRound distinct) (supported.sweepRound distinct)

end Table

end CallGraph
