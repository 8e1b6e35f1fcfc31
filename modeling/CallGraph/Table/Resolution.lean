import CallGraph.Journal
import CallGraph.Table.Basic

/-!
# Resolving edges

Dumps name the ends of an edge by their bare symbol, which several compilation units may use for
different things.  Resolution replaces every forward edge by the key it denotes, makes the
backward edges agree with the forward ones, and drops the records that are left without edges.

* `resolveForward` reads a token in the light of each origin of its record: the private symbol of
  that origin comes before the public one.  A record with several origins keeps a target only if
  that target names it back.
* `pruneBackward` keeps a public entry of a backward field only if the symbol it names has the
  record in its forward field.
* `sweep` removes records without edges, and the edges to them, until none is left.
-/

namespace CallGraph

/-- A record without its edges to the given keys. -/
def Record.withoutEdgesTo (record : Record) (gone : List Key) : Record :=
  EdgeField.all.foldl
    (fun record field =>
      if (record.edges field).any gone.contains then
        record.setEdges field ((record.edges field).filter fun key => !gone.contains key)
      else record)
    record

namespace Table

/-- Give the origins of dropped public symbols back to those that returned. -/
def restoreOrigins (table : Table) : Table :=
  let restored := table.detached.entries.foldl
    (fun table entry => table.modify entry.1 (·.addOrigins entry.2)) table
  { restored with detached := ∅ }

/-- The key that a token denotes in an origin: the private symbol of the origin, if there is one. -/
def denotation (table : Table) (token : String) (origin : Origin) : Key :=
  let candidate := (Key.readings token origin).2
  if table.contains candidate then candidate else token

/-- What one token of a forward field contributes in the light of one origin.

`resolved` holds the targets found so far. -/
def resolveToken (key : Key) (field : EdgeField) (severalOrigins : Bool)
    (state : Table × List Key) (token : String) (origin : Origin) : Table × List Key :=
  let (table, resolved) := state
  let target := table.denotation token origin
  match table.get? target with
  | none => state
  | some record =>
      if severalOrigins && !(record.edges field.inverse).contains key then state
      else
        let table :=
          if Key.isPrivate key then table.modify target (·.addEdges field.inverse [key])
          else table
        (table, if resolved.contains target then resolved else resolved ++ [target])

/-- Replace the tokens of a forward field by the keys they denote. -/
def resolveForward (table : Table) (key : Key) (field : EdgeField) : Table :=
  match table.get? key with
  | none => table
  | some record =>
      let tokens := record.edges field
      if tokens.isEmpty then table
      else
        let (linked, resolved) := tokens.foldl
          (fun state token => record.origins.foldl
            (fun state origin =>
              resolveToken key field (record.origins.length > 1) state token origin) state)
          (table, [])
        linked.modify key (·.setEdges field resolved)

/-- Whether an entry of a backward field stands: private entries do, a public one does if the
symbol it names has the record in its forward field. -/
def keepsBackward (table : Table) (key : Key) (field : EdgeField) (token : String) : Bool :=
  Key.isPrivate token ||
    match table.get? token with
    | some record => (record.edges field.inverse).contains key
    | none => false

/-- Drop the entries of a backward field that no forward edge answers. -/
def pruneBackward (table : Table) (key : Key) (field : EdgeField) : Table :=
  match table.get? key with
  | none => table
  | some record =>
      let kept := (record.edges field).filter (table.keepsBackward key field)
      table.modify key (·.setEdges field kept)

/-- The keys of the records without edges. -/
def spuriousKeys (table : Table) : List Key :=
  (table.entries.filter fun entry => !entry.2.hasEdges).map Prod.fst

/-- The records that have edges, without their edges to the given keys. -/
def sweepRound (table : Table) (gone : List Key) : Table :=
  { table with
    records := (table.records.filter fun _ record => record.hasEdges).mapValues
      fun _ record => record.withoutEdgesTo gone }

theorem size_sweepRound_lt (table : Table) (gone : List Key) (some_gone : table.spuriousKeys ≠ []) :
    (table.sweepRound gone).size < table.size := by
  have unlinked : ∃ entry ∈ table.records.entries, ¬ entry.2.hasEdges = true := by
    obtain ⟨key, member⟩ := List.exists_mem_of_ne_nil _ some_gone
    simp only [spuriousKeys, List.mem_map, List.mem_filter] at member
    obtain ⟨entry, ⟨present, bare⟩, -⟩ := member
    exact ⟨entry, present, by simpa using bare⟩
  simpa [sweepRound, size, KeyMap.size, KeyMap.mapValues, KeyMap.filter] using unlinked

/-- Remove records without edges, and the edges to them, until every record has an edge.

The number counts the removed records. -/
def sweep (table : Table) : Table × Nat :=
  if _settled : table.spuriousKeys = [] then (table, 0)
  else
    let (swept, removed) := sweep (table.sweepRound table.spuriousKeys)
    (swept, table.spuriousKeys.length + removed)
termination_by table.size
decreasing_by exact size_sweepRound_lt table _ _settled

/-- Every key with each of the given fields, in table order. -/
def fieldsOf (table : Table) (fields : List EdgeField) : List (Key × EdgeField) :=
  table.keys.flatMap fun key => fields.map fun field => (key, field)

/-- Resolve every forward field, in table order. -/
def resolveForwardFields (table : Table) : Table :=
  (table.fieldsOf EdgeField.forward).foldl
    (fun table entry => table.resolveForward entry.1 entry.2) table

/-- Prune every backward field, in table order. -/
def pruneBackwardFields (table : Table) : Table :=
  (table.fieldsOf EdgeField.backward).foldl
    (fun table entry => table.pruneBackward entry.1 entry.2) table

/-- Both passes over the fields, before the sweep. -/
def linkFields (table : Table) : Table :=
  table.restoreOrigins.resolveForwardFields.pruneBackwardFields

/-- Resolve every edge of a table into which all dumps were read. -/
def resolve (table : Table) : Table :=
  table.linkFields.sweep.1

/-- What the resolution of one forward field reports. -/
def forwardEvents (before after : Table) (key : Key) (field : EdgeField) : List Event :=
  match before.get? key, after.get? key with
  | some old, some new =>
      if (old.edges field).isEmpty then []
      else [.fieldResolved key field (old.edges field) (new.edges field)]
  | _, _ => []

/-- What resolution reports while it runs. -/
def resolveEvents (table : Table) : List Event :=
  let restored := table.restoreOrigins
  let steps := (restored.fieldsOf EdgeField.forward).foldl
    (fun (state : Table × List Event) entry =>
      let after := state.1.resolveForward entry.1 entry.2
      (after, state.2 ++ forwardEvents state.1 after entry.1 entry.2))
    (restored, [])
  let removed := table.linkFields.sweep.2
  .resolving restored.size :: steps.2 ++
    if removed = 0 then [] else [.unlinkedRemoved removed]

end Table

end CallGraph
