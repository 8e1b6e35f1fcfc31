/-!
# Maps that remember the order of their keys

A `KeyMap` is a finite map from texts whose entries stay in the order in which their keys first
came.  Replacing a value leaves its key where it stands; a key that is erased and put again goes
to the end.  No key occurs twice, and every operation keeps it so.
-/

namespace CallGraph

universe u v

/-- A finite map from texts whose entries keep the order in which their keys came. -/
structure KeyMap (α : Type u) where
  /-- The keys and their values, oldest key first. -/
  entries : List (String × α)
  /-- No key has two entries. -/
  distinct : (entries.map Prod.fst).Nodup

namespace KeyMap

variable {α : Type u} {β : Type v}

/-- The map without entries. -/
def empty : KeyMap α := ⟨[], List.nodup_nil⟩

instance : EmptyCollection (KeyMap α) := ⟨empty⟩

instance : Inhabited (KeyMap α) := ⟨empty⟩

/-- The keys, oldest first. -/
def keys (map : KeyMap α) : List String := map.entries.map Prod.fst

/-- The number of entries. -/
def size (map : KeyMap α) : Nat := map.entries.length

/-- The value of a key. -/
def get? (map : KeyMap α) (key : String) : Option α := map.entries.lookup key

/-- Whether a key has a value. -/
def contains (map : KeyMap α) (key : String) : Bool := map.keys.contains key

theorem ext_entries {left right : KeyMap α} (same : left.entries = right.entries) :
    left = right := by
  cases left
  cases right
  cases same
  rfl

theorem keys_nodup (map : KeyMap α) : map.keys.Nodup := map.distinct

@[simp] theorem contains_iff (map : KeyMap α) (key : String) :
    map.contains key = true ↔ key ∈ map.keys := by
  simp [contains]

theorem mem_keys_of_get? (map : KeyMap α) {key : String} {value : α}
    (found : map.get? key = some value) : key ∈ map.keys := by
  unfold get? at found
  unfold keys
  generalize map.entries = entries at found
  induction entries with
  | nil => simp at found
  | cons entry entries induction =>
      rw [List.lookup_cons] at found
      split at found
      · next same => simp [eq_of_beq same]
      · exact List.mem_cons_of_mem _ (induction found)

/-- Change the values, each in the light of its key. -/
def mapValues (map : KeyMap α) (change : String → α → β) : KeyMap β where
  entries := map.entries.map fun entry => (entry.1, change entry.1 entry.2)
  distinct := by
    have same : (map.entries.map fun entry => (entry.1, change entry.1 entry.2)).map Prod.fst =
        map.entries.map Prod.fst := by
      simp [Function.comp_def]
    rw [same]
    exact map.distinct

@[simp] theorem keys_mapValues (map : KeyMap α) (change : String → α → β) :
    (map.mapValues change).keys = map.keys := by
  simp [keys, mapValues, Function.comp_def]

/-- Change the value of one key, if it has one. -/
def modify (map : KeyMap α) (key : String) (change : α → α) : KeyMap α :=
  map.mapValues fun name value => if name = key then change value else value

@[simp] theorem keys_modify (map : KeyMap α) (key : String) (change : α → α) :
    (map.modify key change).keys = map.keys :=
  keys_mapValues map _

/-- Keep the entries that a test accepts. -/
def filter (map : KeyMap α) (keep : String → α → Bool) : KeyMap α where
  entries := map.entries.filter fun entry => keep entry.1 entry.2
  distinct := map.distinct.sublist (List.filter_sublist.map Prod.fst)

/-- Forget a key. -/
def erase (map : KeyMap α) (key : String) : KeyMap α :=
  map.filter fun name _ => name != key

theorem keys_erase (map : KeyMap α) (key : String) :
    (map.erase key).keys = map.keys.filter (· != key) := by
  simp [keys, erase, filter, List.filter_map, Function.comp_def]

/-- Put a new key at the end. -/
def append (map : KeyMap α) (key : String) (value : α) (fresh : key ∉ map.keys) : KeyMap α where
  entries := map.entries ++ [(key, value)]
  distinct := by
    rw [List.map_append, List.nodup_append]
    refine ⟨map.distinct, by simp, ?_⟩
    intro name present other final same
    have last : other = key := by simpa using final
    exact fresh (last ▸ same ▸ present)

/-- Give a key a value: in its place if it has one already, at the end otherwise. -/
def insert (map : KeyMap α) (key : String) (value : α) : KeyMap α :=
  if present : key ∈ map.keys then map.modify key fun _ => value
  else map.append key value present

/-- The map of a list of entries, where a later value of a key replaces an earlier one. -/
def ofList (entries : List (String × α)) : KeyMap α :=
  entries.foldl (fun map entry => map.insert entry.1 entry.2) empty

@[simp] theorem keys_empty : (empty : KeyMap α).keys = [] := rfl

@[simp] theorem keys_append (map : KeyMap α) (key : String) (value : α)
    (fresh : key ∉ map.keys) : (map.append key value fresh).keys = map.keys ++ [key] := by
  simp [keys, append]

theorem keys_insert (map : KeyMap α) (key : String) (value : α) :
    (map.insert key value).keys = if key ∈ map.keys then map.keys else map.keys ++ [key] := by
  unfold insert
  split <;> simp_all

/-- Two maps agree when they give every key the same value, whatever the order of their keys. -/
def agrees [BEq α] (left right : KeyMap α) : Bool :=
  left.size == right.size &&
    left.entries.all fun entry => right.get? entry.1 == some entry.2

end KeyMap

end CallGraph
