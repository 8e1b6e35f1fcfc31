import CallGraph.Proofs.Lookup
import CallGraph.Table.Resolution

/-!
# Resolving the forward fields

`targets` is what the tokens of a forward field stand for in a table, computed from that table
alone.  Resolving one field replaces its tokens by their targets and, for a private key, notes the
key in the inverse field of every target.  The central statement, `linkedBy_fieldsOf`, says that
the pass over all fields gives each field the targets it has in the table before the pass: no
field that is resolved earlier changes what a later one stands for.
-/

namespace CallGraph

namespace EdgeField

theorem isForward_inverse (field : EdgeField) : field.inverse.isForward = !field.isForward := by
  cases field <;> rfl

theorem inverse_injective {left right : EdgeField} (same : left.inverse = right.inverse) :
    left = right := by
  rw [← inverse_inverse left, same, inverse_inverse]

/-- A forward field is never the inverse of another one. -/
theorem ne_inverse {field other : EdgeField} (forward : field.isForward = true)
    (otherForward : other.isForward = true) : field ≠ other.inverse := by
  rintro rfl
  simp [isForward_inverse, otherForward] at forward

end EdgeField

/-- Every token of a field with every origin of its record, in the order in which they are
tried. -/
def Record.readings (record : Record) (field : EdgeField) : List (String × Origin) :=
  (record.edges field).flatMap fun token => record.origins.map fun origin => (token, origin)

theorem Record.mem_readings_iff {record : Record} {field : EdgeField} {token : String}
    {origin : Origin} :
    (token, origin) ∈ record.readings field ↔
      token ∈ record.edges field ∧ origin ∈ record.origins := by
  simp [readings]

/-- A record after its key, one of `noted`, was told that the private `key` leads to it. -/
def Record.note (key : Key) (field : EdgeField) (noted : List Key) (own : Key)
    (record : Record) : Record :=
  if Key.isPrivate key = true ∧ own ∈ noted then record.addEdges field.inverse [key] else record

@[simp] theorem Record.note_nil (key : Key) (field : EdgeField) (own : Key) (record : Record) :
    record.note key field [] own = record := by
  simp [note]

theorem Record.body_note (key : Key) (field : EdgeField) (noted : List Key) (own : Key)
    (record : Record) : (record.note key field noted own).body = record.body := by
  unfold note
  split
  · exact body_addEdges record _ _
  · rfl

namespace Table

/-- The target that a token contributes in the light of an origin, if it contributes one. -/
def target? (table : Table) (key : Key) (field : EdgeField) (severalOrigins : Bool)
    (reading : String × Origin) : Option Key :=
  let target := table.denotation reading.1 reading.2
  match table.get? target with
  | none => none
  | some record =>
      if severalOrigins && !(record.edges field.inverse).contains key then none else some target

/-- What the tokens of a forward field stand for, each target once. -/
def targets (table : Table) (key : Key) (field : EdgeField) : List Key :=
  match table.get? key with
  | none => []
  | some record =>
      distinctMembers
        ((record.readings field).filterMap
          (table.target? key field (record.origins.length > 1)))

theorem denotation_congr {left right : Table}
    (same : ∀ key, left.contains key = right.contains key) (token : String) (origin : Origin) :
    left.denotation token origin = right.denotation token origin := by
  simp only [ denotation, same]

theorem target?_eq_some_iff {table : Table} {key target : Key} {field : EdgeField}
    {severalOrigins : Bool} {reading : String × Origin} :
    table.target? key field severalOrigins reading = some target ↔
      table.denotation reading.1 reading.2 = target ∧ table.contains target = true ∧
        (severalOrigins = true → key ∈ table.edgesOf target field.inverse) := by
  simp only [target?, contains_iff, mem_edgesOf_iff]
  constructor
  · intro found
    split at found
    · cases found
    · next record present =>
        split at found
        · cases found
        · next answers =>
            cases found
            refine ⟨rfl, ⟨record, present⟩, fun several => ⟨record, present, ?_⟩⟩
            simpa [several] using answers
  · rintro ⟨rfl, ⟨record, present⟩, answers⟩
    simp only [present]
    rw [if_neg]
    intro unanswered
    simp only [Bool.and_eq_true, Bool.not_eq_true', List.contains_eq_mem,
      decide_eq_false_iff_not] at unanswered
    obtain ⟨stored, again, member⟩ := answers unanswered.1
    rw [present] at again
    cases again
    exact unanswered.2 member

/-- A key stands in the targets of a field when some token denotes it in the light of some origin,
it has a record, and it names the key back if the key has several origins. -/
theorem mem_targets_iff {table : Table} {key target : Key} {field : EdgeField} :
    target ∈ table.targets key field ↔
      ∃ record, table.get? key = some record ∧
        (∃ token ∈ record.edges field, ∃ origin ∈ record.origins,
          table.denotation token origin = target) ∧
        table.contains target = true ∧
        (1 < record.origins.length → key ∈ table.edgesOf target field.inverse) := by
  unfold targets
  cases present : table.get? key with
  | none => simp
  | some record =>
      simp only [mem_distinctMembers, List.mem_filterMap, Prod.exists, Record.mem_readings_iff,
        target?_eq_some_iff, decide_eq_true_eq, Option.some.injEq, exists_eq_left']
      constructor
      · rintro ⟨token, origin, ⟨listed, declared⟩, denotes, exists_target, answers⟩
        exact ⟨⟨token, listed, origin, declared, denotes⟩, exists_target, answers⟩
      · rintro ⟨⟨token, listed, origin, declared, denotes⟩, exists_target, answers⟩
        exact ⟨token, origin, ⟨listed, declared⟩, denotes, exists_target, answers⟩

theorem nodup_targets (table : Table) (key : Key) (field : EdgeField) :
    (table.targets key field).Nodup := by
  unfold targets
  cases table.get? key with
  | none => exact List.nodup_nil
  | some record => exact nodup_distinctMembers _

/-! ## One field -/

/-- Where the resolution of a field stands after some readings: the keys found are those the
readings contribute in the table `before`, and only these were told of the key. -/
structure Tracks (before : Table) (key : Key) (field : EdgeField) (severalOrigins : Bool)
    (tried : List (String × Origin)) (state : Table × List Key) : Prop where
  /-- Every record is the one before, told of the key if it was found. -/
  records : ∀ own, state.1.get? own = (before.get? own).map (Record.note key field state.2 own)
  /-- The keys found. -/
  found : state.2 = distinctMembers
    (tried.filterMap (before.target? key field severalOrigins))

theorem Tracks.contains_eq {before : Table} {key : Key} {field : EdgeField}
    {severalOrigins : Bool} {tried : List (String × Origin)} {state : Table × List Key}
    (tracks : Tracks before key field severalOrigins tried state) (own : Key) :
    state.1.contains own = before.contains own := by
  rw [Bool.eq_iff_iff, contains_iff, contains_iff, tracks.records own]
  cases before.get? own <;> simp

/-- Telling a record of the key does not change whether it names the key back, as far as the
resolution asks. -/
theorem Tracks.target?_eq {before : Table} {key : Key} {field : EdgeField}
    {severalOrigins : Bool} {tried : List (String × Origin)} {state : Table × List Key}
    (tracks : Tracks before key field severalOrigins tried state) (reading : String × Origin) :
    state.1.target? key field severalOrigins reading =
      before.target? key field severalOrigins reading := by
  ext target
  rw [target?_eq_some_iff, target?_eq_some_iff, denotation_congr tracks.contains_eq,
    tracks.contains_eq]
  refine and_congr_right fun _ => and_congr_right fun _ => imp_congr_right fun several => ?_
  rw [mem_edgesOf_iff, mem_edgesOf_iff, tracks.records target]
  cases present : before.get? target with
  | none => simp
  | some record =>
      simp only [Option.map_some, Option.some.injEq, exists_eq_left']
      unfold Record.note
      split
      · next told =>
          have answers : key ∈ before.edgesOf target field.inverse := by
            have member := told.2
            rw [tracks.found, mem_distinctMembers, List.mem_filterMap] at member
            obtain ⟨earlier, -, contributes⟩ := member
            exact (target?_eq_some_iff.mp contributes).2.2 several
          rw [edgesOf_eq present] at answers
          simp [Record.edges_addEdges, mem_union, answers]
      · rfl

theorem resolveToken_eq (key : Key) (field : EdgeField) (severalOrigins : Bool)
    (state : Table × List Key) (token : String) (origin : Origin) :
    resolveToken key field severalOrigins state token origin =
      match state.1.target? key field severalOrigins (token, origin) with
      | none => state
      | some target =>
          (if Key.isPrivate key then
              state.1.modify target (·.addEdges field.inverse [key])
            else state.1,
            union state.2 [target]) := by
  obtain ⟨table, resolved⟩ := state
  simp only [resolveToken, target?]
  cases table.get? (table.denotation token origin) with
  | none => rfl
  | some record =>
      dsimp only
      split <;> simp [union]

theorem distinctMembers_append_singleton (items : List String) (item : String) :
    distinctMembers (items ++ [item]) = union (distinctMembers items) [item] :=
  union_append [] items [item]

/-- Telling a record twice is telling it once. -/
theorem note_addEdges (key own : Key) (field : EdgeField) (found : List Key) (record : Record) :
    (Record.note key field found own record).addEdges field.inverse [key] =
      record.addEdges field.inverse [key] := by
  unfold Record.note
  split
  · have present : key ∈ (record.addEdges field.inverse [key]).edges field.inverse := by
      simp [Record.edges_addEdges, mem_union]
    rw [Record.addEdges, union, if_pos present, union, Record.withEdges_edges]
  · rfl

/-- One more reading. -/
theorem Tracks.step {before : Table} {key : Key} {field : EdgeField}
    {severalOrigins : Bool} {tried : List (String × Origin)} {state : Table × List Key}
    (tracks : Tracks before key field severalOrigins tried state) (token : String)
    (origin : Origin) :
    Tracks before key field severalOrigins (tried ++ [(token, origin)])
      (resolveToken key field severalOrigins state token origin) := by
  rw [resolveToken_eq, tracks.target?_eq]
  cases contributes : before.target? key field severalOrigins (token, origin) with
  | none =>
      refine ⟨tracks.records, ?_⟩
      rw [tracks.found, List.filterMap_append]
      simp [contributes]
  | some target =>
      refine ⟨fun own => ?_, ?_⟩
      · dsimp only
        by_cases isPrivate : Key.isPrivate key = true
        · rw [if_pos isPrivate, get?_modify, tracks.records own]
          by_cases same : own = target
          · subst same
            rw [if_pos rfl, Option.map_map]
            congr 1
            funext record
            rw [Function.comp_apply, note_addEdges]
            simp [Record.note, isPrivate, mem_union]
          · rw [if_neg same]
            congr 1
            funext record
            simp [Record.note, mem_union, same]
        · rw [if_neg isPrivate, tracks.records own]
          congr 1
          funext record
          simp [Record.note, isPrivate]
      · rw [List.filterMap_append]
        simp only [List.filterMap_cons, contributes, List.filterMap_nil]
        rw [distinctMembers_append_singleton, ← tracks.found]

theorem Tracks.foldl {before : Table} {key : Key} {field : EdgeField}
    {severalOrigins : Bool} {tried : List (String × Origin)} {state : Table × List Key}
    (tracks : Tracks before key field severalOrigins tried state)
    (readings : List (String × Origin)) :
    Tracks before key field severalOrigins (tried ++ readings)
      (readings.foldl
        (fun state reading => resolveToken key field severalOrigins state reading.1 reading.2)
        state) := by
  induction readings generalizing tried state with
  | nil => simpa using tracks
  | cons reading readings induction =>
      simpa using induction (tracks.step reading.1 reading.2)

/-- The nested loops over tokens and origins run through the readings of the record. -/
theorem foldl_readings {σ : Type} (record : Record) (field : EdgeField)
    (change : σ → String → Origin → σ) (state : σ) :
    (record.edges field).foldl
        (fun state token => record.origins.foldl (fun state origin => change state token origin)
          state) state =
      (record.readings field).foldl (fun state reading => change state reading.1 reading.2)
        state := by
  simp only [Record.readings, List.foldl_flatMap, List.foldl_map]

/-- Resolving a field gives it its targets and tells each of them of a private key. -/
theorem get?_resolveForward (table : Table) (key : Key) (field : EdgeField) (own : Key) :
    (table.resolveForward key field).get? own =
      (table.get? own).map fun record =>
        let told := record.note key field (table.targets key field) own
        if own = key then told.withEdges field (table.targets key field) else told := by
  unfold resolveForward targets
  cases present : table.get? key with
  | none =>
      have elsewhere : table.get? own ≠ none → own ≠ key := by
        rintro some_record rfl
        exact some_record present
      cases found : table.get? own with
      | none => rfl
      | some record => simp [elsewhere (by simp [found])]
  | some record =>
      dsimp only
      rw [foldl_readings record field
        (fun state token origin =>
          resolveToken key field (record.origins.length > 1) state token origin)]
      have started : Tracks table key field (record.origins.length > 1) [] (table, []) := by
        refine ⟨fun own => ?_, rfl⟩
        cases table.get? own <;> simp
      have ended := started.foldl (record.readings field)
      rw [List.nil_append] at ended
      rw [← ended.found]
      split
      · next noTokens =>
          have unread : record.readings field = [] := by
            rw [Record.readings, List.isEmpty_iff.mp noTokens, List.flatMap_nil]
          have kept : record.withEdges field [] = record := by
            rw [← List.isEmpty_iff.mp noTokens, Record.withEdges_edges]
          rw [unread, List.foldl_nil]
          by_cases same : own = key
          · subst same
            simp [present, kept]
          · cases table.get? own <;> simp [same]
      · rw [get?_modify, ended.records own]
        have distinct : distinctMembers _ = _ := distinctMembers_eq_self
          (ended.found ▸ nodup_distinctMembers _)
        by_cases same : own = key
        · subst same
          simp only [Record.setEdges, distinct, present, Option.map_some, if_true]
        · cases table.get? own <;> simp [same]

theorem targets_of_absent {table : Table} {key : Key} (absent : table.get? key = none)
    (field : EdgeField) : table.targets key field = [] := by
  simp [targets, absent]

theorem contains_of_mem_targets {table : Table} {key target : Key} {field : EdgeField}
    (member : target ∈ table.targets key field) : table.contains target = true := by
  obtain ⟨-, -, -, present, -⟩ := mem_targets_iff.mp member
  exact present

theorem body_resolveForward (table : Table) (key : Key) (field : EdgeField) (own : Key) :
    ((table.resolveForward key field).get? own).map Record.body =
      (table.get? own).map Record.body := by
  rw [get?_resolveForward, Option.map_map]
  congr 1
  funext record
  simp only [Function.comp_apply]
  split
  · rw [Record.body_withEdges, Record.body_note]
  · rw [Record.body_note]

theorem edgesOf_resolveForward_forward (table : Table) (key : Key) {field : EdgeField}
    (forward : field.isForward = true) (own : Key) {other : EdgeField}
    (otherForward : other.isForward = true) :
    (table.resolveForward key field).edgesOf own other =
      if (own, other) = (key, field) then table.targets key field
      else table.edgesOf own other := by
  have untouched : ∀ record : Record,
      (record.note key field (table.targets key field) own).edges other =
        record.edges other := by
    intro record
    unfold Record.note
    split
    · rw [Record.edges_addEdges, if_neg (EdgeField.ne_inverse otherForward forward)]
    · rfl
  unfold edgesOf
  rw [get?_resolveForward]
  cases found : table.get? own with
  | none =>
      by_cases same : (own, other) = (key, field)
      · cases same
        simp [targets_of_absent found]
      · rw [if_neg same]
        rfl
  | some record =>
      by_cases sameKey : own = key
      · subst sameKey
        by_cases sameField : other = field
        · simp [sameField]
        · simp [sameField, Record.edges_withEdges, untouched]
      · simp [sameKey, untouched]

theorem edgesOf_resolveForward_backward (table : Table) (key : Key) {field : EdgeField}
    (forward : field.isForward = true) (own : Key) {other : EdgeField}
    (otherForward : other.isForward = true) :
    (table.resolveForward key field).edgesOf own other.inverse =
      if other = field ∧ Key.isPrivate key = true ∧ own ∈ table.targets key field then
        union (table.edgesOf own other.inverse) [key]
      else table.edgesOf own other.inverse := by
  unfold edgesOf
  rw [get?_resolveForward]
  cases found : table.get? own with
  | none =>
      have untold : own ∉ table.targets key field := by
        intro member
        obtain ⟨record, present⟩ := (table.contains_iff own).mp (contains_of_mem_targets member)
        simp [found] at present
      simp [untold]
  | some record =>
      have kept : ∀ told : Record, ∀ keys,
          (told.withEdges field keys).edges other.inverse = told.edges other.inverse :=
        fun told keys =>
          Record.edges_withEdges_of_ne told keys (EdgeField.ne_inverse forward otherForward).symm
      have told :
          (record.note key field (table.targets key field) own).edges other.inverse =
            if other = field ∧ Key.isPrivate key = true ∧ own ∈ table.targets key field then
              union (record.edges other.inverse) [key]
            else record.edges other.inverse := by
        unfold Record.note
        by_cases sameField : other = field
        · subst sameField
          split <;> simp_all [Record.edges_addEdges]
        · have inverses : other.inverse ≠ field.inverse := fun same =>
            sameField (EdgeField.inverse_injective same)
          split <;> simp [Record.edges_addEdges, inverses, sameField]
      simp only [Option.map_some, Option.getD_some]
      split
      · rw [kept, told]
      · exact told

/-! ## All fields -/

/-- The private keys of some fields that have a given target, in order. -/
def backers (table : Table) (fields : List (Key × EdgeField)) (field : EdgeField)
    (target : Key) : List Key :=
  (fields.filter fun entry =>
    entry.2 = field ∧ Key.isPrivate entry.1 = true ∧
      target ∈ table.targets entry.1 entry.2).map Prod.fst

theorem mem_backers_iff {table : Table} {fields : List (Key × EdgeField)} {field : EdgeField}
    {target key : Key} :
    key ∈ table.backers fields field target ↔
      (key, field) ∈ fields ∧ Key.isPrivate key = true ∧ target ∈ table.targets key field := by
  simp only [backers, List.mem_map, List.mem_filter, decide_eq_true_eq, Prod.exists,
    exists_and_right, exists_eq_right]
  constructor
  · rintro ⟨other, member, rfl, isPrivate, listed⟩
    exact ⟨member, isPrivate, listed⟩
  · rintro ⟨member, isPrivate, listed⟩
    exact ⟨field, member, rfl, isPrivate, listed⟩

/-- The table `now` is `start` with the forward fields in `resolved` resolved as they stand in
`start`. -/
structure LinkedBy (start : Table) (resolved : List (Key × EdgeField)) (now : Table) : Prop where
  /-- What is known of each symbol itself stays. -/
  body : ∀ key, (now.get? key).map Record.body = (start.get? key).map Record.body
  /-- A resolved field holds its targets, any other forward field its tokens. -/
  forward : ∀ key field, field.isForward = true →
    now.edgesOf key field =
      if (key, field) ∈ resolved then start.targets key field else start.edgesOf key field
  /-- A backward field holds what it held and the private keys that lead to it. -/
  backward : ∀ key field, field.isForward = true →
    now.edgesOf key field.inverse =
      union (start.edgesOf key field.inverse) (start.backers resolved field key)

theorem contains_eq_of_body {left right : Table}
    (same : ∀ key, (left.get? key).map Record.body = (right.get? key).map Record.body)
    (key : Key) : left.contains key = right.contains key := by
  rw [Bool.eq_iff_iff, contains_iff, contains_iff]
  have equal := same key
  cases found : left.get? key <;> cases other : right.get? key <;> simp_all

theorem LinkedBy.refl (table : Table) : LinkedBy table [] table where
  body _ := rfl
  forward _ _ _ := by simp
  backward _ _ _ := by simp [backers, union]

/-- A field that is not resolved yet has the targets it had at the start. -/
theorem LinkedBy.targets_eq {start now : Table} {resolved : List (Key × EdgeField)}
    (linked : LinkedBy start resolved now) {key : Key} {field : EdgeField}
    (forward : field.isForward = true) (open_field : (key, field) ∉ resolved) :
    now.targets key field = start.targets key field := by
  have tokens : now.edgesOf key field = start.edgesOf key field := by
    rw [linked.forward key field forward, if_neg open_field]
  have answers : ∀ target, key ∈ now.edgesOf target field.inverse ↔
      key ∈ start.edgesOf target field.inverse := by
    intro target
    rw [linked.backward target field forward, mem_union, mem_backers_iff]
    simp [open_field]
  have sameTarget : ∀ several, now.target? key field several = start.target? key field several := by
    intro several
    funext reading
    ext target
    rw [target?_eq_some_iff, target?_eq_some_iff,
      denotation_congr (contains_eq_of_body linked.body),
      contains_eq_of_body linked.body, answers]
  unfold targets
  have body := linked.body key
  cases found : now.get? key with
  | none =>
      rw [found] at body
      rw [Option.map_eq_none_iff.mp body.symm]
  | some record =>
      rw [found] at body
      obtain ⟨stored, present, sameBody⟩ := Option.map_eq_some_iff.mp body.symm
      rw [edgesOf_eq found, edgesOf_eq present] at tokens
      have origins : record.origins = stored.origins := Record.origins_eq_of_body sameBody.symm
      simp only [present, Record.readings, tokens, origins, sameTarget]

/-- One more field. -/
theorem LinkedBy.step {start now : Table} {resolved : List (Key × EdgeField)}
    (linked : LinkedBy start resolved now) {key : Key} {field : EdgeField}
    (forward : field.isForward = true) (open_field : (key, field) ∉ resolved) :
    LinkedBy start (resolved ++ [(key, field)]) (now.resolveForward key field) where
  body own := by rw [body_resolveForward, linked.body]
  forward own other otherForward := by
    rw [edgesOf_resolveForward_forward now key forward own otherForward,
      linked.targets_eq forward open_field, linked.forward own other otherForward]
    by_cases same : (own, other) = (key, field)
    · cases same
      simp
    · simp only [same, if_false, List.mem_append, List.mem_singleton, or_false]
  backward own other otherForward := by
    rw [edgesOf_resolveForward_backward now key forward own otherForward,
      linked.targets_eq forward open_field, linked.backward own other otherForward]
    have added : start.backers (resolved ++ [(key, field)]) other own =
        start.backers resolved other own ++
          if other = field ∧ Key.isPrivate key = true ∧ own ∈ start.targets key field then [key]
          else [] := by
      simp only [backers, List.filter_append, List.map_append, List.filter_cons, List.filter_nil,
        decide_eq_true_eq, eq_comm (a := field) (b := other)]
      congr 1
      split <;> rfl
    rw [added, union_append]
    split <;> rfl

theorem LinkedBy.foldl {start now : Table} {resolved fields : List (Key × EdgeField)}
    (linked : LinkedBy start resolved now)
    (forward : ∀ entry ∈ fields, entry.2.isForward = true)
    (distinct : (resolved ++ fields).Nodup) :
    LinkedBy start (resolved ++ fields)
      (fields.foldl (fun table entry => table.resolveForward entry.1 entry.2) now) := by
  induction fields generalizing resolved now with
  | nil => simpa using linked
  | cons entry fields induction =>
      have open_field : (entry.1, entry.2) ∉ resolved := fun member =>
        (List.nodup_append.mp distinct).2.2 _ member _ List.mem_cons_self rfl
      have advanced := linked.step (forward entry List.mem_cons_self) open_field
      have regrouped : resolved ++ entry :: fields = (resolved ++ [entry]) ++ fields := by simp
      rw [regrouped] at distinct ⊢
      exact induction advanced (fun later member => forward later (List.mem_cons_of_mem _ member))
        distinct

theorem mem_fieldsOf_iff {table : Table} {fields : List EdgeField} {key : Key}
    {field : EdgeField} :
    (key, field) ∈ table.fieldsOf fields ↔ table.contains key = true ∧ field ∈ fields := by
  simp [fieldsOf, mem_keys_iff]

theorem nodup_fieldsOf (table : Table) {fields : List EdgeField} (distinct : fields.Nodup) :
    (table.fieldsOf fields).Nodup := by
  rw [fieldsOf, List.Nodup, List.pairwise_flatMap]
  constructor
  · intro key _
    rw [List.pairwise_map]
    exact distinct.imp fun different same => different (congrArg Prod.snd same)
  · refine table.records.keys_nodup.imp ?_
    intro key other different entry member otherEntry otherMember same
    obtain ⟨field, -, rfl⟩ := List.mem_map.mp member
    obtain ⟨otherField, -, rfl⟩ := List.mem_map.mp otherMember
    exact different (congrArg Prod.fst same)

/-- The pass over the forward fields gives each of them the targets it has before the pass. -/
theorem linkedBy_fieldsOf (table : Table) :
    LinkedBy table (table.fieldsOf EdgeField.forward) table.resolveForwardFields := by
  apply (LinkedBy.refl table).foldl
  · rintro ⟨key, field⟩ member
    exact (EdgeField.mem_forward_iff field).mp (mem_fieldsOf_iff.mp member).2
  · rw [List.nil_append]
    exact table.nodup_fieldsOf (by decide)

theorem edgesOf_of_absent {table : Table} {key : Key} (absent : ¬ table.contains key = true)
    (field : EdgeField) : table.edgesOf key field = [] := by
  rw [edgesOf, (table.not_contains_iff key).mp absent]
  rfl

theorem edgesOf_resolveForwardFields_forward (table : Table) (key : Key) {field : EdgeField}
    (forward : field.isForward = true) :
    table.resolveForwardFields.edgesOf key field = table.targets key field := by
  rw [(linkedBy_fieldsOf table).forward key field forward]
  split
  · rfl
  · next unlisted =>
      have absent : ¬ table.contains key = true := by
        simpa [mem_fieldsOf_iff, EdgeField.mem_forward_iff, forward] using unlisted
      rw [edgesOf_of_absent absent, targets_of_absent ((table.not_contains_iff key).mp absent)]

theorem mem_resolveForwardFields_backward (table : Table) (key token : Key) {field : EdgeField}
    (forward : field.isForward = true) :
    token ∈ table.resolveForwardFields.edgesOf key field.inverse ↔
      token ∈ table.edgesOf key field.inverse ∨
        Key.isPrivate token = true ∧ key ∈ table.targets token field := by
  rw [(linkedBy_fieldsOf table).backward key field forward, mem_union, mem_backers_iff,
    mem_fieldsOf_iff, EdgeField.mem_forward_iff]
  refine or_congr_right ⟨fun ⟨_, backed⟩ => backed, fun backed => ⟨⟨?_, forward⟩, backed⟩⟩
  obtain ⟨record, found, -⟩ := mem_targets_iff.mp backed.2
  exact (table.contains_iff token).mpr ⟨record, found⟩

end Table

end CallGraph
