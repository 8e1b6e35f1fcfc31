import CallGraph.Table.Basic

/-!
# Look-up in maps, records and tables

A private key is told apart from every bare symbol and gives back its parts.  Each operation is
described by what it does to look-up: a map by the value of every key, a record by its four lists of
edges, a table by the record of every key and by `edgesOf`, the edges of a key in a field.  What
follows about reading and resolving rests on these equations alone.
-/

namespace CallGraph

universe u v

/-! ## Keys -/

namespace Key

theorem toList_inOrigin (symbol : String) (origin : Origin) :
    (inOrigin symbol origin).toList = symbol.toList ++ separator :: origin.toList := by
  simp [inOrigin, separator]

theorem isPrivate_inOrigin (symbol : String) (origin : Origin) :
    isPrivate (inOrigin symbol origin) = true := by
  simp [isPrivate, toList_inOrigin]

theorem ne_separator_of_unmarked {symbol : String} (unmarked : isPrivate symbol = false) :
    ∀ letter ∈ symbol.toList, (letter != separator) = true := by
  intro letter member
  rw [bne_iff_ne]
  rintro rfl
  rw [isPrivate, Bool.eq_false_iff, ne_eq, List.contains_iff_mem] at unmarked
  exact unmarked member

theorem bare_inOrigin {symbol : String} (unmarked : isPrivate symbol = false) (origin : Origin) :
    bare (inOrigin symbol origin) = symbol := by
  rw [bare, toList_inOrigin, List.takeWhile_append_of_pos (ne_separator_of_unmarked unmarked)]
  simp

theorem bare_eq_self {key : Key} (unmarked : isPrivate key = false) : bare key = key := by
  have whole := @List.takeWhile_append_of_pos _ _ _ [] (ne_separator_of_unmarked unmarked)
  rw [List.append_nil, List.takeWhile_nil, List.append_nil] at whole
  rw [bare, whole, String.ofList_toList]

/-- A private key tells its symbol and its origin apart. -/
theorem inOrigin_injective {symbol other : String} {origin elsewhere : Origin}
    (unmarked : isPrivate symbol = false) (otherUnmarked : isPrivate other = false)
    (same : inOrigin symbol origin = inOrigin other elsewhere) :
    symbol = other ∧ origin = elsewhere := by
  have symbols : symbol = other := by
    rw [← bare_inOrigin unmarked origin, same, bare_inOrigin otherUnmarked]
  subst symbols
  have letters := congrArg String.toList same
  rw [toList_inOrigin, toList_inOrigin, List.append_cancel_left_eq, List.cons.injEq] at letters
  exact ⟨rfl, String.toList_inj.mp letters.2⟩

theorem isPrivate_bare (key : Key) : isPrivate (bare key) = false := by
  rw [isPrivate, bare, String.toList_ofList, Bool.eq_false_iff, ne_eq, List.contains_iff_mem]
  intro member
  have clear := List.all_eq_true.mp (@List.all_takeWhile _ (· != separator) key.toList)
  simpa using clear separator member

theorem ne_inOrigin {key : Key} (unmarked : isPrivate key = false) (symbol : String)
    (origin : Origin) : key ≠ inOrigin symbol origin := by
  rintro rfl
  rw [isPrivate_inOrigin] at unmarked
  cases unmarked

theorem inOrigin_ne_empty (symbol : String) (origin : Origin) : inOrigin symbol origin ≠ "" :=
  (ne_inOrigin (by decide) symbol origin).symm

end Key

/-! ## Maps -/

namespace KeyMap

variable {α : Type u} {β : Type v}

theorem get?_eq_some_iff (map : KeyMap α) (key : String) (value : α) :
    map.get? key = some value ↔ (key, value) ∈ map.entries := by
  have distinct := map.distinct
  unfold get?
  generalize map.entries = entries at distinct
  induction entries with
  | nil => simp
  | cons entry entries induction =>
      rw [List.map_cons, List.nodup_cons] at distinct
      rw [List.lookup_cons, List.mem_cons]
      by_cases same : key = entry.1
      · subst same
        have elsewhere : (entry.1, value) ∉ entries := fun member =>
          distinct.1 (List.mem_map.mpr ⟨_, member, rfl⟩)
        simp only [beq_self_eq_true, Option.some.injEq, elsewhere, or_false]
        constructor
        · rintro rfl
          rfl
        · intro equality
          rw [← equality]
      · have different : ¬ (key, value) = entry := fun equality => same (by rw [← equality])
        rw [show (key == entry.1) = false by simpa using same]
        simpa [different] using induction distinct.2

theorem mem_keys_iff (map : KeyMap α) (key : String) :
    key ∈ map.keys ↔ ∃ value, map.get? key = some value := by
  simp only [get?_eq_some_iff, keys, List.mem_map, Prod.exists]
  constructor
  · rintro ⟨name, value, member, rfl⟩
    exact ⟨value, member⟩
  · rintro ⟨value, member⟩
    exact ⟨key, value, member, rfl⟩

@[simp] theorem get?_empty (key : String) : (∅ : KeyMap α).get? key = none := rfl

@[simp] theorem get?_mapValues (map : KeyMap α) (change : String → α → β) (key : String) :
    (map.mapValues change).get? key = (map.get? key).map (change key) := by
  change (map.entries.map fun entry => (entry.1, change entry.1 entry.2)).lookup key =
    (map.entries.lookup key).map (change key)
  generalize map.entries = entries
  induction entries with
  | nil => rfl
  | cons entry entries induction =>
      obtain ⟨name, value⟩ := entry
      simp only [List.map_cons, List.lookup_cons, induction]
      by_cases same : key = name
      · subst same
        simp
      · simp [show (key == name) = false by simpa using same]

@[simp] theorem get?_modify (map : KeyMap α) (key : String) (change : α → α) (other : String) :
    (map.modify key change).get? other =
      if other = key then (map.get? other).map change else map.get? other := by
  rw [modify, get?_mapValues]
  split <;> simp

theorem get?_filter (map : KeyMap α) (keep : String → α → Bool) (key : String) :
    (map.filter keep).get? key = (map.get? key).filter (keep key) := by
  ext value
  rw [get?_eq_some_iff, Option.filter_eq_some_iff, get?_eq_some_iff]
  simp [filter]

@[simp] theorem get?_erase (map : KeyMap α) (key other : String) :
    (map.erase key).get? other = if other = key then none else map.get? other := by
  rw [erase, get?_filter]
  by_cases same : other = key
  · subst same
    cases map.get? other <;> simp
  · cases map.get? other <;> simp [same]

theorem get?_append (map : KeyMap α) (key : String) (value : α) (fresh : key ∉ map.keys)
    (other : String) :
    (map.append key value fresh).get? other =
      if other = key then some value else map.get? other := by
  ext found
  rw [get?_eq_some_iff]
  by_cases same : other = key
  · subst same
    have absent : (other, found) ∉ map.entries := fun member =>
      fresh (List.mem_map.mpr ⟨_, member, rfl⟩)
    simp [append, absent, eq_comm]
  · simp [append, same, get?_eq_some_iff]

@[simp] theorem get?_insert (map : KeyMap α) (key : String) (value : α) (other : String) :
    (map.insert key value).get? other = if other = key then some value else map.get? other := by
  unfold insert
  split
  · next present =>
      obtain ⟨stored, found⟩ := (map.mem_keys_iff key).mp present
      by_cases same : other = key
      · subst same
        simp [found]
      · simp [same]
  · rw [get?_append]

theorem modify_modify (map : KeyMap α) (key : String) (change further : α → α) :
    (map.modify key change).modify key further =
      map.modify key fun value => further (change value) := by
  apply ext_entries
  simp only [modify, mapValues, List.map_map]
  apply List.map_congr_left
  intro entry _
  by_cases same : entry.1 = key <;> simp [same]

theorem modify_self (map : KeyMap α) (key : String) :
    map.modify key (fun value => value) = map := by
  apply ext_entries
  simp [modify, mapValues]

theorem entries_insert_of_not_mem (map : KeyMap α) {key : String} (value : α)
    (fresh : key ∉ map.keys) : (map.insert key value).entries = map.entries ++ [(key, value)] := by
  rw [insert, dif_neg fresh]
  rfl

theorem entries_foldl_insert (map : KeyMap α) {entries : List (String × α)}
    (distinct : ((map.entries ++ entries).map Prod.fst).Nodup) :
    (entries.foldl (fun map entry => map.insert entry.1 entry.2) map).entries =
      map.entries ++ entries := by
  induction entries generalizing map with
  | nil => simp
  | cons entry entries induction =>
      have fresh : entry.1 ∉ map.keys := by
        rw [List.map_append, List.map_cons, List.nodup_append] at distinct
        exact fun present => distinct.2.2 entry.1 present entry.1 List.mem_cons_self rfl
      have after := map.entries_insert_of_not_mem entry.2 fresh
      rw [List.foldl_cons, induction _ (by simpa [after] using distinct), after]
      simp

/-- The map of entries with distinct keys has these entries. -/
theorem entries_ofList {entries : List (String × α)} (distinct : (entries.map Prod.fst).Nodup) :
    (ofList entries).entries = entries :=
  entries_foldl_insert empty distinct

end KeyMap

/-! ## Lists of edges -/

theorem mem_union {items : List String} {members : List String} {item : String} :
    item ∈ union members items ↔ item ∈ members ∨ item ∈ items := by
  induction items generalizing members with
  | nil => simp [union]
  | cons head items induction =>
      rw [union]
      split
      · next present =>
          rw [induction, List.mem_cons]
          constructor
          · rintro (old | new)
            · exact .inl old
            · exact .inr (.inr new)
          · rintro (old | rfl | new)
            · exact .inl old
            · exact .inl present
            · exact .inr new
      · rw [induction, List.mem_append, List.mem_singleton, List.mem_cons, or_assoc]

theorem nodup_union {members : List String} (distinct : members.Nodup) (items : List String) :
    (union members items).Nodup := by
  induction items generalizing members with
  | nil => exact distinct
  | cons head items induction =>
      rw [union]
      split
      · exact induction distinct
      · next absent =>
          apply induction
          rw [List.nodup_append]
          refine ⟨distinct, by simp, ?_⟩
          rintro item present other final rfl
          exact absent (List.mem_singleton.mp final ▸ present)

@[simp] theorem mem_distinctMembers {items : List String} {item : String} :
    item ∈ distinctMembers items ↔ item ∈ items := by
  simp [distinctMembers, mem_union]

theorem nodup_distinctMembers (items : List String) : (distinctMembers items).Nodup :=
  nodup_union List.nodup_nil items

theorem union_append (members left right : List String) :
    union members (left ++ right) = union (union members left) right := by
  induction left generalizing members with
  | nil => rfl
  | cons head left induction =>
      simp only [List.cons_append, union]
      split <;> exact induction _

/-- A list without repetition is its own list of members. -/
theorem union_eq_append {members items : List String} (distinct : (members ++ items).Nodup) :
    union members items = members ++ items := by
  induction items generalizing members with
  | nil => simp [union]
  | cons head items induction =>
      have absent : head ∉ members := by
        intro present
        exact (List.nodup_append.mp distinct).2.2 head present head List.mem_cons_self rfl
      rw [union, if_neg absent]
      have regrouped : members ++ head :: items = (members ++ [head]) ++ items := by simp
      rw [regrouped] at distinct ⊢
      exact induction distinct

theorem distinctMembers_eq_self {items : List String} (distinct : items.Nodup) :
    distinctMembers items = items := by
  simpa [distinctMembers] using @union_eq_append [] items (by simpa using distinct)

/-! ## Records -/

namespace Record

/-- A record without its edges: what is known of the symbol itself. -/
def body (record : Record) : Record :=
  { record with references := [], referring := [], calls := [], calledBy := [] }

theorem origins_eq_of_body {left right : Record} (same : left.body = right.body) :
    left.origins = right.origins := by
  change left.body.origins = right.body.origins
  rw [same]

theorem name_eq_of_body {left right : Record} (same : left.body = right.body) :
    left.name = right.name := by
  change left.body.name = right.body.name
  rw [same]

theorem kind_eq_of_body {left right : Record} (same : left.body = right.body) :
    left.kind = right.kind := by
  change left.body.kind = right.body.kind
  rw [same]

theorem visibility_eq_of_body {left right : Record} (same : left.body = right.body) :
    left.visibility = right.visibility := by
  change left.body.visibility = right.body.visibility
  rw [same]

@[simp] theorem addOrigins_nil (record : Record) : record.addOrigins [] = record := rfl

@[simp] theorem edges_addOrigins (record : Record) (origins : List Origin) (field : EdgeField) :
    (record.addOrigins origins).edges field = record.edges field := by
  cases field <;> rfl

/-- A record is told by what it says apart from its edges, and by its edges. -/
theorem eq_of_edges {left right : Record} (body : left.body = right.body)
    (edges : ∀ field, left.edges field = right.edges field) : left = right := by
  have references := edges .references
  have referring := edges .referring
  have calls := edges .calls
  have calledBy := edges .calledBy
  cases left
  cases right
  simp_all [Record.body, Record.edges]

@[simp] theorem body_withEdges (record : Record) (field : EdgeField) (keys : List Key) :
    (record.withEdges field keys).body = record.body := by
  cases field <;> rfl

@[simp] theorem body_addEdges (record : Record) (field : EdgeField) (keys : List Key) :
    (record.addEdges field keys).body = record.body :=
  body_withEdges record field _

theorem edges_withEdges (record : Record) (field other : EdgeField) (keys : List Key) :
    (record.withEdges field keys).edges other =
      if other = field then keys else record.edges other := by
  split
  · next same => rw [same, edges_withEdges_same]
  · next different => exact edges_withEdges_of_ne record keys different

theorem edges_addEdges (record : Record) (field other : EdgeField) (keys : List Key) :
    (record.addEdges field keys).edges other =
      if other = field then union (record.edges field) keys else record.edges other :=
  edges_withEdges record field other _

@[simp] theorem withEdges_edges (record : Record) (field : EdgeField) :
    record.withEdges field (record.edges field) = record := by
  cases field <;> rfl

/-- A record has an edge when one of its lists has a member. -/
theorem hasEdges_iff (record : Record) :
    record.hasEdges = true ↔ ∃ field key, key ∈ record.edges field := by
  simp only [hasEdges, List.any_eq_true, Bool.not_eq_true', List.isEmpty_eq_false_iff]
  constructor
  · rintro ⟨field, -, nonempty⟩
    exact ⟨field, List.exists_mem_of_ne_nil _ nonempty⟩
  · rintro ⟨field, key, member⟩
    exact ⟨field, EdgeField.mem_all field, List.ne_nil_of_mem member⟩

end Record

/-! ## Tables -/

namespace Table

@[simp] theorem get?_empty (key : Key) : (∅ : Table).get? key = none := rfl

theorem contains_iff (table : Table) (key : Key) :
    table.contains key = true ↔ ∃ record, table.get? key = some record := by
  rw [contains, KeyMap.contains_iff]
  exact table.records.mem_keys_iff key

theorem not_contains_iff (table : Table) (key : Key) :
    ¬ table.contains key = true ↔ table.get? key = none := by
  rw [contains_iff, Option.eq_none_iff_forall_ne_some, not_exists]

theorem mem_keys_iff (table : Table) (key : Key) :
    key ∈ table.keys ↔ table.contains key = true := by
  rw [contains, KeyMap.contains_iff, keys]

theorem mem_entries_iff (table : Table) (key : Key) (record : Record) :
    (key, record) ∈ table.entries ↔ table.get? key = some record :=
  (table.records.get?_eq_some_iff key record).symm

@[simp] theorem get?_modify (table : Table) (key : Key) (change : Record → Record) (other : Key) :
    (table.modify key change).get? other =
      if other = key then (table.get? other).map change else table.get? other :=
  KeyMap.get?_modify table.records key change other

@[simp] theorem get?_erase (table : Table) (key other : Key) :
    (table.erase key).get? other = if other = key then none else table.get? other :=
  KeyMap.get?_erase table.records key other

@[simp] theorem get?_put (table : Table) (key : Key) (record : Record) (other : Key) :
    (table.put key record).get? other =
      if other = key then some record else table.get? other :=
  KeyMap.get?_insert table.records key record other

/-- The edges of a key in a field; a key without record has none. -/
def edgesOf (table : Table) (key : Key) (field : EdgeField) : List Key :=
  ((table.get? key).map (·.edges field)).getD []

theorem edgesOf_eq {table : Table} {key : Key} {record : Record}
    (found : table.get? key = some record) (field : EdgeField) :
    table.edgesOf key field = record.edges field := by
  simp [edgesOf, found]

theorem mem_edgesOf_iff {table : Table} {key target : Key} {field : EdgeField} :
    target ∈ table.edgesOf key field ↔
      ∃ record, table.get? key = some record ∧ target ∈ record.edges field := by
  unfold edgesOf
  cases table.get? key <;> simp

theorem contains_of_mem_edgesOf {table : Table} {key target : Key} {field : EdgeField}
    (member : target ∈ table.edgesOf key field) : table.contains key = true := by
  obtain ⟨record, found, -⟩ := mem_edgesOf_iff.mp member
  exact (table.contains_iff key).mpr ⟨record, found⟩

theorem get?_ensure (table : Table) (key other : Key) :
    (table.ensure key).get? other =
      if other = key then some ((table.get? key).getD {}) else table.get? other := by
  unfold ensure
  split
  · next present =>
      obtain ⟨record, found⟩ := (table.contains_iff key).mp present
      by_cases same : other = key
      · simp [same, found]
      · simp [same]
  · next absent =>
      simp [(table.not_contains_iff key).mp absent]

/-- Dropping a record without edges takes away nothing else. -/
theorem get?_dropSpurious (table : Table) (key other : Key) :
    (table.dropSpurious key).get? other =
      if other = key then (table.get? key).filter Record.hasEdges else table.get? other := by
  unfold dropSpurious
  cases found : table.get? key with
  | none =>
      by_cases same : other = key
      · simp [same, found]
      · simp [same]
  | some record =>
      cases linked : record.hasEdges with
      | true =>
          by_cases same : other = key
          · simp [same, found, linked, Option.filter]
          · simp [same, linked]
      | false =>
          have erased : ((table.detach key record.origins).erase key).get? other =
              (table.erase key).get? other := rfl
          simp only [Bool.false_eq_true, if_false, Option.filter, linked]
          split
          · rw [erased, get?_erase]
          · rw [get?_erase]

theorem detached_dropSpurious (table : Table) (key own : Key) :
    ((table.dropSpurious key).detached.get? own).getD [] =
      if own = key ∧ Key.isPrivate key = false ∧ table.isSpurious key = true then
        union ((table.detached.get? key).getD [])
          (((table.get? key).map Record.origins).getD [])
      else (table.detached.get? own).getD [] := by
  unfold dropSpurious isSpurious
  cases table.get? key with
  | none => simp
  | some record =>
      cases linked : record.hasEdges with
      | true => simp [linked]
      | false =>
          cases marked : Key.isPrivate key with
          | true => simp [linked, erase]
          | false =>
              cases declared : record.origins with
              | nil =>
                  by_cases same : own = key
                  · simp [same, linked, erase, union, declared]
                  · simp [same, linked, erase, declared]
              | cons head tail =>
                  by_cases same : own = key
                  · simp [same, linked, erase, detach, declared]
                  · simp [same, linked, erase, detach, declared]

/-- Dropping a record without edges takes no edge away. -/
theorem edgesOf_dropSpurious (table : Table) (key other : Key) (field : EdgeField) :
    (table.dropSpurious key).edgesOf other field = table.edgesOf other field := by
  unfold edgesOf
  rw [get?_dropSpurious]
  split
  · next same =>
      subst same
      cases table.get? other with
      | none => rfl
      | some record =>
          cases linked : record.hasEdges with
          | true => simp [Option.filter, linked]
          | false =>
              have unlinked : record.edges field = [] := by
                rw [← Bool.not_eq_true, Record.hasEdges_iff] at linked
                exact List.eq_nil_iff_forall_not_mem.mpr fun target member =>
                  linked ⟨field, target, member⟩
              simp [Option.filter, linked, unlinked]
  · rfl

end Table

/-! ## Merging -/

namespace Record

theorem edges_foldl_addEdges (other : Record) (fields : List EdgeField) (distinct : fields.Nodup)
    (record : Record) (field : EdgeField) :
    (fields.foldl (fun joined field => joined.addEdges field (other.edges field)) record).edges
        field =
      if field ∈ fields then union (record.edges field) (other.edges field)
      else record.edges field := by
  induction fields generalizing record with
  | nil => rfl
  | cons head fields induction =>
      rw [List.nodup_cons] at distinct
      rw [List.foldl_cons, induction distinct.2, edges_addEdges]
      by_cases same : field = head
      · subst same
        simp [distinct.1]
      · simp [same]

theorem body_foldl_addEdges (other : Record) (fields : List EdgeField) (record : Record) :
    (fields.foldl (fun joined field => joined.addEdges field (other.edges field)) record).body =
      record.body := by
  induction fields generalizing record with
  | nil => rfl
  | cons head fields induction => rw [List.foldl_cons, induction, body_addEdges]

theorem edges_absorb (record other : Record) (field : EdgeField) :
    (record.absorb other).edges field = union (record.edges field) (other.edges field) := by
  rw [absorb, edges_foldl_addEdges other EdgeField.all (by decide),
    if_pos (EdgeField.mem_all field), edges_addOrigins]

theorem body_absorb (record other : Record) :
    (record.absorb other).body = (record.addOrigins other.origins).body :=
  body_foldl_addEdges other EdgeField.all _

theorem origins_absorb (record other : Record) :
    (record.absorb other).origins = union record.origins other.origins :=
  (origins_eq_of_body (body_absorb record other)).trans rfl

end Record

namespace Table

theorem contains_erase (table : Table) (key other : Key) :
    (table.erase key).contains other = true ↔ other ≠ key ∧ table.contains other = true := by
  rw [contains_iff, contains_iff]
  by_cases same : other = key
  · simp [same]
  · simp [same]

/-- Moving a record needs a record to move and a key that no other record has.  If the key is taken,
the record is gone all the same. -/
theorem rekey_eq (old new : Key) (table : Table) :
    rekey old new table =
      match table.get? old with
      | none => .error (.absent old) table
      | some record =>
          if new ≠ old ∧ table.contains new = true then .error (.taken new) (table.erase old)
          else .ok () ((table.erase old).put new record) := by
  change EStateM.bind (remove old) (fun record => insert new record) table = _
  cases found : table.get? old with
  | none => simp [EStateM.bind, remove, found]
  | some record => simp [EStateM.bind, remove, found, insert, contains_erase]

/-- The ways in which merging succeeds: nothing to do, a move, or a union of two records that
agree. -/
theorem merge_ok_iff {target source : Key} {table after : Table} :
    merge target source table = .ok () after ↔
      ∃ incoming, table.get? source = some incoming ∧
        (target = source ∧ after = table ∨
          target ≠ source ∧
            (table.get? target = none ∧ after = (table.erase source).put target incoming ∨
              ∃ record, table.get? target = some record ∧ record.kind = incoming.kind ∧
                record.visibility = incoming.visibility ∧
                after = (table.modify target (·.absorb incoming)).erase source)) := by
  unfold merge
  cases sourceFound : table.get? source with
  | none => simp
  | some incoming =>
      simp only [Option.some.injEq, exists_eq_left']
      by_cases same : target = source
      · simp [same, eq_comm]
      · simp only [same, if_false, false_and, false_or, ne_eq, not_false_eq_true, true_and]
        cases targetFound : table.get? target with
        | none =>
            have free := (table.not_contains_iff target).mpr targetFound
            simp [rekey_eq, sourceFound, free, eq_comm]
        | some record =>
            simp only [reduceCtorEq, false_and, Option.some.injEq, exists_eq_left', false_or]
            by_cases kinds : record.kind = incoming.kind
            · by_cases visibilities : record.visibility = incoming.visibility
              · simp [kinds, visibilities, eq_comm]
              · simp [kinds, visibilities]
            · simp [kinds]

/-- Merging two keys leaves the joined record at the one, nothing at the other and the rest as it
was. -/
theorem get?_merge {target source : Key} {table after : Table}
    (merged : merge target source table = .ok () after) (different : target ≠ source) :
    ∃ incoming, table.get? source = some incoming ∧ ∀ own, after.get? own =
      if own = target then some (((table.get? target).map (·.absorb incoming)).getD incoming)
      else if own = source then none else table.get? own := by
  obtain ⟨incoming, found, cases_⟩ := merge_ok_iff.mp merged
  refine ⟨incoming, found, fun own => ?_⟩
  rcases cases_ with ⟨same, -⟩ | ⟨-, ⟨absent, rfl⟩ | ⟨record, present, -, -, rfl⟩⟩
  · exact absurd same different
  · rw [get?_put, get?_erase, absent]
    rfl
  · rw [get?_erase, get?_modify]
    by_cases isTarget : own = target
    · subst isTarget
      simp [different, present]
    · simp [isTarget]

/-- Merging invents no origin: those of the joined record come from either side. -/
theorem mem_origins_merge {target source own : Key} {table after : Table}
    (merged : merge target source table = .ok () after) (different : target ≠ source)
    {record : Record} (found : after.get? own = some record) {origin : Origin}
    (listed : origin ∈ record.origins) :
    (∃ old, table.get? own = some old ∧ origin ∈ old.origins) ∨
      own = target ∧ ∃ incoming, table.get? source = some incoming ∧ origin ∈ incoming.origins := by
  obtain ⟨incoming, incomingFound, records⟩ := get?_merge merged different
  rw [records] at found
  split at found
  · next isTarget =>
      subst isTarget
      cases stored : table.get? own with
      | none =>
          rw [stored] at found
          cases found
          exact .inr ⟨rfl, incoming, incomingFound, listed⟩
      | some old =>
          rw [stored] at found
          cases found
          rw [Option.map_some, Option.getD_some, Record.origins_absorb, mem_union] at listed
          rcases listed with earlier | brought
          · exact .inl ⟨old, rfl, earlier⟩
          · exact .inr ⟨rfl, incoming, incomingFound, brought⟩
  · split at found
    · cases found
    · exact .inl ⟨record, found, listed⟩

/-- Merging leaves all other keys as they were. -/
theorem get?_merge_of_ne {target source own : Key} {table after : Table}
    (merged : merge target source table = .ok () after) (notTarget : own ≠ target)
    (notSource : own ≠ source) : after.get? own = table.get? own := by
  by_cases same : target = source
  · obtain ⟨incoming, -, ⟨-, rfl⟩ | ⟨apart, -⟩⟩ := merge_ok_iff.mp merged
    · rfl
    · exact absurd same apart
  · obtain ⟨incoming, -, records⟩ := get?_merge merged same
    rw [records, if_neg notTarget, if_neg notSource]

theorem detached_merge {target source : Key} {table after : Table}
    (merged : merge target source table = .ok () after) : after.detached = table.detached := by
  obtain ⟨incoming, -, ⟨-, rfl⟩ | ⟨-, ⟨-, rfl⟩ | ⟨record, -, -, -, rfl⟩⟩⟩ := merge_ok_iff.mp merged
  · rfl
  · rfl
  · rfl

end Table

end CallGraph
