import CallGraph.Proofs.Building
import CallGraph.Proofs.Reading.Invariants
import CallGraph.Proofs.Reading.Lines
import CallGraph.Proofs.Resolution.Reciprocity
import CallGraph.Proofs.TableText.RoundTrip
import CallGraph.Proofs.Violation

/-!
# Persisting a built table

Dumps may bring texts into a table that its persisted form cannot tell from its own punctuation.
The text of a sound table is read back as the same table iff its keys, names and origins keep clear
of that punctuation, and they do if the origins of the files and the headers in them do.
-/

namespace CallGraph

open Text TableText

/-! ## Tidy tables -/

/-- A key that may be written both as an item and at the head of a block. -/
@[mk_iff] structure Key.Tidy (key : Key) : Prop where
  /-- It may be an item of a list. -/
  item : ListItem key
  /-- It does not begin a comment. -/
  start : key.toList.head? ≠ some '#'

/-- A name that may be written after its label. -/
@[mk_iff] structure TidyName (name : String) : Prop where
  /-- It has no blanks around it. -/
  trimmed : trim name = name
  /-- It has no line boundaries. -/
  oneLine : OneLine name

instance (key : Key) : Decidable key.Tidy :=
  decidable_of_iff' _ (Key.tidy_iff key)

instance (name : String) : Decidable (TidyName name) :=
  decidable_of_iff' _ (tidyName_iff name)

/-- A record that may be written, apart from its edges, under a key that may be written. -/
structure Record.Tidy (key : Key) (record : Record) : Prop where
  /-- The key may be written. -/
  key : key.Tidy
  /-- So may the name. -/
  name : TidyName record.name
  /-- So may every origin. -/
  origins : ∀ origin ∈ record.origins, ListItem origin

/-- A table whose keys, names and origins may be written. -/
def Table.Tidy (table : Table) : Prop :=
  ∀ key record, table.get? key = some record → record.Tidy key

theorem Key.Tidy.representable {key : Key} (tidy : key.Tidy) : key.Representable := by
  refine ⟨?_, tidy.item.oneLine⟩
  cases letters : key.toList with
  | nil => exact absurd (by simpa using letters) tidy.item.nonempty
  | cons first rest =>
      have trimmed := trim_eq_self_iff.mp tidy.item.trimmed
      refine ⟨first, rest, rfl, ?_, ?_⟩
      · exact (dropAround_eq_self_iff.mp trimmed).1 first (by simp [letters])
      · rintro rfl
        exact tidy.start (by simp [letters])

theorem Key.Representable.head?_ne {key : Key} (representable : key.Representable) :
    key.toList.head? ≠ some '#' := by
  obtain ⟨first, rest, shape, -, noComment⟩ := representable.start
  simpa [shape] using noComment

namespace Table

/-- Every key of a sound table is also an edge, and every edge a key; so its lists say nothing that
its keys do not say. -/
theorem representable_iff_tidy {table : Table} (sound : table.isSound = true) :
    table.Representable ↔ table.Tidy := by
  constructor
  · intro representable key record found
    obtain ⟨keyRepresentable, recordRepresentable⟩ := representable key record found
    have linked : record.hasEdges = true := by
      by_contra unlinked
      exact not_applies_of_isSound sound (.spurious key) found (Bool.eq_false_iff.mpr unlinked)
    obtain ⟨field, target, edge⟩ := record.hasEdges_iff.mp linked
    obtain ⟨stored, present, inverse⟩ := answered_of_isSound sound found edge
    refine ⟨⟨?_, keyRepresentable.head?_ne⟩, ?_, ?_⟩
    · exact (representable target stored present).2.items (.edges field.inverse) key inverse
    · exact ⟨recordRepresentable.trimmed, recordRepresentable.oneLine⟩
    · exact recordRepresentable.items .origins
  · intro tidy key record found
    obtain ⟨keyTidy, nameTidy, originsTidy⟩ := tidy key record found
    refine ⟨keyTidy.representable, ?_, nameTidy.trimmed, nameTidy.oneLine, ?_⟩
    · by_contra untyped
      exact not_applies_of_isSound sound (.untyped key) found
        (Option.not_isSome_iff_eq_none.mp untyped)
    · rintro (field | _) item listed
      · obtain ⟨stored, present, -⟩ := answered_of_isSound sound found listed
        exact (tidy item stored present).key.item
      · exact originsTidy item listed

end Table

/-! ## Tidy units -/

theorem Key.bare_bare (key : Key) : Key.bare (Key.bare key) = Key.bare key := by
  simp [Key.bare, List.takeWhile_idem]

theorem TableText.ListItem.inOrigin {symbol : String} {origin : Origin}
    (symbolItem : ListItem symbol) (originItem : ListItem origin) :
    ListItem (Key.inOrigin symbol origin) := by
  obtain ⟨symbolTrimmed, symbolUndivided, symbolOneLine⟩ := listItem_iff.mp symbolItem
  obtain ⟨originTrimmed, originUndivided, originOneLine⟩ := listItem_iff.mp originItem
  rw [isItem_iff] at symbolTrimmed originTrimmed
  rw [listItem_iff, isItem_iff, Key.toList_inOrigin]
  refine ⟨⟨by simp, ?_⟩, ?_, ?_⟩
  · simpa using dropAround_append_append [Key.separator] symbolTrimmed.1 originTrimmed.1
      symbolTrimmed.2 originTrimmed.2
  · exact not_infix_append_cons (by decide) symbolUndivided originUndivided
  · exact (symbolOneLine.append (by decide)).append originOneLine

theorem Key.Tidy.inOrigin {symbol : String} {origin : Origin} (tidy : Key.Tidy symbol)
    (originItem : ListItem origin) : (Key.inOrigin symbol origin).Tidy where
  item := tidy.item.inOrigin originItem
  start := by
    have nonempty : symbol.toList ≠ [] := by simpa using tidy.item.nonempty
    rw [Key.toList_inOrigin, List.head?_append_of_ne_nil _ nonempty]
    exact tidy.start

namespace Record.Tidy

variable {key : Key} {record changed : Record}

theorem of_body (tidy : record.Tidy key) (same : changed.body = record.body) :
    changed.Tidy key := by
  refine ⟨tidy.key, ?_, ?_⟩
  · rw [name_eq_of_body same]
    exact tidy.name
  · rw [origins_eq_of_body same]
    exact tidy.origins

theorem addOrigins (tidy : record.Tidy key) {origins : List Origin}
    (items : ∀ origin ∈ origins, ListItem origin) : (record.addOrigins origins).Tidy key := by
  refine ⟨tidy.key, tidy.name, fun origin member => ?_⟩
  rcases mem_union.mp member with own | added
  · exact tidy.origins origin own
  · exact items origin added

end Record.Tidy

namespace Dump

/-- A line whose symbol and name, if it opens a block, may be written. -/
def TidyLine (line : String) : Prop :=
  ∀ header, readLine line = .ok (.header header) →
    Key.Tidy header.symbol ∧ TidyName header.name

instance (line : String) : Decidable (TidyLine line) :=
  match read : readLine line with
  | .ok (.header header) =>
      decidable_of_iff (Key.Tidy header.symbol ∧ TidyName header.name)
        ⟨fun tidy other same => by cases read.symm.trans same; exact tidy,
          fun tidy => tidy header read⟩
  | .ok (.field _ _) | .ok .other | .error _ => isTrue fun _ same => nomatch read.symm.trans same

/-- A unit whose origin, symbols and names may be written. -/
@[mk_iff] structure TidyUnit (unit : Origin × List String) : Prop where
  /-- The origin may be an item of a list. -/
  origin : ListItem unit.1
  /-- So may the symbols of the headers, and their names may be written. -/
  lines : ∀ line ∈ unit.2, TidyLine line

instance (unit : Origin × List String) : Decidable (TidyUnit unit) :=
  decidable_of_iff' _ (tidyUnit_iff unit)

/-- Lines of a unit that is tidy keep every record tidy, under its key and, as the symbol may turn
out to be public, under its symbol alone. -/
theorem upholds_tidy {origin : Origin} (originItem : ListItem origin) :
    Upholds
      (fun item => ∀ header, item = .header header →
        Key.isPrivate header.symbol = false ∧ Key.Tidy header.symbol ∧ TidyName header.name)
      origin (fun key record => record.Tidy key ∧ Key.Tidy (Key.bare key)) ListItem where
  opened header sayable stored tidy := by
    obtain ⟨unmarked, symbolTidy, nameTidy⟩ := sayable header rfl
    have renamed : { stored.getD {} with name := header.name }.Tidy
        (Key.inOrigin header.symbol origin) := by
      refine ⟨symbolTidy.inOrigin originItem, nameTidy, fun elsewhere member => ?_⟩
      cases stored with
      | none => cases member
      | some record => exact (tidy record rfl).1.origins elsewhere member
    refine ⟨renamed.addOrigins fun elsewhere member => ?_, ?_⟩
    · exact List.mem_singleton.mp member ▸ originItem
    · rwa [Key.bare_inOrigin unmarked]
  typed _ _ _ tidy := ⟨⟨tidy.1.key, tidy.1.name, tidy.1.origins⟩, tidy.2⟩
  hidden _ _ _ tidy := ⟨⟨tidy.1.key, tidy.1.name, tidy.1.origins⟩, tidy.2⟩
  published key record external tidy := by
    refine ⟨⟨tidy.2, tidy.1.name, fun elsewhere member => ?_⟩, (Key.bare_bare key).symm ▸ tidy.2⟩
    cases external with
    | true => cases member
    | false => exact tidy.1.origins elsewhere member
  absorbed _ record other tidy otherTidy :=
    ⟨(tidy.1.addOrigins otherTidy.1.origins).of_body (record.body_absorb other), tidy.2⟩
  listed _ record field value _ tidy :=
    ⟨tidy.1.of_body (record.body_addEdges field (edgeTokens value)), tidy.2⟩
  known _ _ tidy := tidy.1.origins

/-- Tidy units lead to a tidy table. -/
theorem tidy_resolve_of_readUnitsInto {units : List (Origin × List String)} {table : Table}
    (read : readUnitsInto ∅ units = .ok table) (tidy : ∀ unit ∈ units, TidyUnit unit) :
    table.resolve.Tidy := by
  have satisfies : table.Satisfies
      (fun key record => record.Tidy key ∧ Key.Tidy (Key.bare key)) ListItem := by
    refine satisfies_of_readUnitsInto read
      (fun unit member => upholds_tidy (tidy unit member).origin) ?_ .empty
    rintro unit member line lineMember item lineRead header rfl
    exact ⟨(header_of_readLine lineRead).2.2.1,
      (tidy unit member).lines line lineMember header lineRead⟩
  intro key record found
  -- resolution changes edges only, once the origins that were kept aside are given back
  obtain ⟨_, oldFound, sameBody⟩ := Table.body_of_resolve found
  rw [Table.get?_restoreOrigins] at oldFound
  obtain ⟨stored, present, rfl⟩ := Option.map_eq_some_iff.mp oldFound
  obtain ⟨storedTidy, -⟩ := satisfies.records key stored present
  exact (storedTidy.addOrigins (satisfies.detached key)).of_body sameBody

end Dump

/-! ## Built tables -/

/-- The text of a sound table that is built from files is read back as the same table iff the keys,
names and origins of the table may be written; and these may be written if the origin and the
headers of every file may. -/
theorem read_format_of_buildFromFiles {root : Path} {suffix : String} {files : List Path}
    {workspace after : Workspace} {table : Table}
    (built : buildFromFiles root suffix files workspace = .ok table after)
    (sound : table.isSound = true) (path : Option String) :
    ((∃ again, (Table.read table.format path).table = some again ∧
        ∀ key, again.get? key = table.get? key) ↔ table.Tidy) ∧
      ((∀ file ∈ files, ∀ bytes, workspace.tree.read file = .ok bytes →
        Dump.TidyUnit (Dump.unitOf root suffix file bytes)) → table.Tidy) := by
  rw [← Table.representable_iff_tidy sound]
  refine ⟨⟨?_, fun representable => Table.read_format representable path⟩, fun tidy => ?_⟩
  · rintro ⟨again, result, same⟩ key record found
    rw [← same] at found
    exact Table.representable_of_read result key record found
  · obtain ⟨units, parsed, unitsOf, read, rfl⟩ := readUnitsInto_of_buildFromFiles built
    rw [Table.representable_iff_tidy sound]
    refine Dump.tidy_resolve_of_readUnitsInto read fun unit member => ?_
    obtain ⟨file, fileMember, bytes, found, rfl⟩ := Dump.exists_file_of_mem unitsOf member
    exact tidy file fileMember bytes found

/-- A file in a directory of the given name. -/
def dumpPath (directory : String) : Path := ⟨"/", [directory, "f.c.cgraph"]⟩

/-- A workspace with one dump, of a function that calls itself, in a directory of the given
name. -/
def dumpIn (directory : String) : Workspace where
  tree :=
    ⟨[([directory], .directory),
      ([directory, "f.c.cgraph"], .file (encode ("Initial Symbol table:\nf/0 (f) @0x0\n" ++
        "  Type: function\n  Calls: f/0\n  Called by: f/0\n")))]⟩

/-- Whether this dump builds a sound table that has a key. -/
def dumpGives (directory : String) (key : Key) : Bool :=
  match buildFromFiles ⟨"/", []⟩ ".cgraph" [dumpPath directory] (dumpIn directory) with
  | .ok table _ => table.isSound && table.contains key
  | .error _ _ => false

theorem exists_of_dumpGives {directory : String} {key : Key}
    (gives : dumpGives directory key = true) :
    ∃ table after,
      buildFromFiles ⟨"/", []⟩ ".cgraph" [dumpPath directory] (dumpIn directory) =
          .ok table after ∧
        table.isSound = true ∧ ∃ record, table.get? key = some record := by
  unfold dumpGives at gives
  split at gives
  · next table after built =>
      rw [Bool.and_eq_true, Table.contains_iff] at gives
      exact ⟨table, after, built, gives⟩
  · cases gives

/-- The dump is read back if it stands in a directory `src`, and is not if it stands in a directory
`my, src`. -/
theorem read_format_dumpIn :
    (∃ table after,
      buildFromFiles ⟨"/", []⟩ ".cgraph" [dumpPath "src"] (dumpIn "src") = .ok table after ∧
        table.isSound = true ∧ ∃ again, (Table.read table.format none).table = some again ∧
          ∀ key, again.get? key = table.get? key) ∧
      ∃ table after,
        buildFromFiles ⟨"/", []⟩ ".cgraph" [dumpPath "my, src"] (dumpIn "my, src") =
            .ok table after ∧
          table.isSound = true ∧ ¬ ∃ again, (Table.read table.format none).table = some again ∧
            ∀ key, again.get? key = table.get? key := by
  have gives : dumpGives "src" "f@src/f.c" = true := by decide +kernel
  have commaGives : dumpGives "my, src" "f@my, src/f.c" = true := by decide +kernel
  have tidyDump : (match (dumpIn "src").tree.read (dumpPath "src") with
      | .ok bytes =>
          decide (Dump.TidyUnit (Dump.unitOf ⟨"/", []⟩ ".cgraph" (dumpPath "src") bytes))
      | .error _ => false) = true := by decide +kernel
  constructor
  · obtain ⟨table, after, built, sound, -⟩ := exists_of_dumpGives gives
    obtain ⟨readBack, tidyOfFiles⟩ := read_format_of_buildFromFiles built sound none
    refine ⟨table, after, built, sound, readBack.mpr (tidyOfFiles ?_)⟩
    intro file member bytes found
    cases List.mem_singleton.mp member
    rw [found] at tidyDump
    exact of_decide_eq_true tidyDump
  · obtain ⟨table, after, built, sound, record, found⟩ := exists_of_dumpGives commaGives
    refine ⟨table, after, built, sound, fun again => ?_⟩
    have tidy := (read_format_of_buildFromFiles built sound none).1.mp again
    exact absurd (tidy _ record found).key (by decide)

end CallGraph
