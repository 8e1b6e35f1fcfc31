import CallGraph.Artifact.Validation
import CallGraph.Proofs.Artifacts.Fields
import CallGraph.Proofs.Sorting
import CallGraph.Proofs.Utf8

/-!
# The symbols are kept without loss

The bytes of the symbols artifact fall into one line for every record, in increasing order of the
keys, and every line gives back its symbol, whatever characters its texts hold.
-/

namespace CallGraph

/-! ## Bytes of JSON -/

namespace Artifact

theorem decodeJson?_utf8 (letters : List Char) :
    decodeJson? (Text.utf8 letters) = Json.parse? .machine (String.ofList letters) := by
  rw [decodeJson?, Text.decode?_utf8]
  rfl

theorem decodeJson?_compact {value : Data} (exact : value.Exact)
    (writable : Json.isWritable value = true) :
    decodeJson? (Text.utf8 (Json.compact value)) = some value.sorted := by
  rw [decodeJson?_utf8, Json.parse?_compact exact writable]

theorem decodeJson?_document {value : Data} (exact : value.Exact)
    (writable : Json.isWritable value = true) :
    decodeJson? (Text.encode (Json.document value)).toList = some value.sorted := by
  rw [Json.document, Text.toList_encode, decodeJson?_utf8]
  exact Json.parse?_document exact writable

end Artifact

/-! ## Symbols -/

namespace SymbolArtifact

variable (symbol : SymbolArtifact)

/-- The fields of a line. -/
def fields : List (String × Data) :=
  symbol.record.toFields ++ [("schema_version", .int symbol.version), ("key", .text symbol.key)]

theorem toData_eq : symbol.toData = .object symbol.fields := rfl

theorem names_nodup : (symbol.fields.map Prod.fst).Nodup := by
  change ["name", "type", "visibility", "filename", "references", "referring", "calls",
    "called_by", "schema_version", "key"].Nodup
  decide

/-- What holds of the version, of all texts and of all lists of texts holds of every field. -/
theorem forall_fields (property : Data → Prop) (version : property (.int symbol.version))
    (text : ∀ value, property (.text value)) (texts : ∀ values, property (Record.textsData values))
    (text? : ∀ value?, property (Record.textData? value?)) :
    ∀ field ∈ symbol.fields, property field.2 := by
  simp only [fields, Record.toFields, List.cons_append, List.nil_append, List.forall_mem_cons]
  exact ⟨text _, text? _, text? _, texts _, texts _, texts _, texts _, texts _, version, text _,
    fun _ member => absurd member List.not_mem_nil⟩

theorem exact_toData : symbol.toData.Exact :=
  .object _ symbol.names_nodup <| symbol.forall_fields Data.Exact (.int _) .text
    Record.exact_textsData Record.exact_textData?

theorem sorted_toData : symbol.toData.sorted = .object (Data.inOrder symbol.fields) := by
  rw [toData_eq, Data.sorted, Data.sortedFields_eq_self]
  exact symbol.forall_fields (fun value => value.sorted = value) (by simp only [Data.sorted])
    (fun _ => by simp only [Data.sorted]) Record.sorted_textsData Record.sorted_textData?

theorem isWritable_toData (fits : -signedBound ≤ symbol.version ∧ symbol.version < unsignedBound) :
    Json.isWritable symbol.toData = true := by
  have each : Json.fieldsFit 253 symbol.fields = true :=
    Json.fieldsFit_iff.mpr <| symbol.forall_fields (fun value => Json.fits 253 value = true)
      (by simpa [Json.fits] using fits) (fun _ => by simp only [Json.fits])
      (Record.fits_textsData _) (Record.fits_textData? _)
  rw [Json.isWritable, Json.writeDepth, toData_eq, Json.fits, each]
  rfl

/-- A line begins with a brace and ends with one. -/
theorem exists_utf8_compact : ∃ inner,
    Text.utf8 (Json.compact symbol.toData) = 123 :: (inner ++ [125]) := by
  rw [toData_eq, Json.compact]
  exact ⟨_, by rw [List.cons_append, Text.utf8_cons, Text.utf8_append]; rfl⟩

theorem lookup_inOrder (name : String) :
    (Data.inOrder symbol.fields).lookup name = symbol.fields.lookup name :=
  Data.lookup_inOrder symbol.names_nodup name

theorem ofData_sorted : ofData symbol.toData.sorted = .ok symbol := by
  have version : Schema.integer (.int symbol.version) = .fine symbol.version := rfl
  have key : Schema.text (.text symbol.key) = .fine symbol.key := rfl
  have record : Record.ofFields (Data.inOrder symbol.fields) = .fine symbol.record := by
    refine Record.ofFields_eq fun name value found => ?_
    rw [lookup_inOrder, fields, List.lookup_append, found]
    rfl
  have foundVersion : (Data.inOrder symbol.fields).lookup "schema_version" =
      some (.int symbol.version) := symbol.lookup_inOrder _
  have foundKey : (Data.inOrder symbol.fields).lookup "key" = some (.text symbol.key) :=
    symbol.lookup_inOrder _
  rw [sorted_toData]
  change (ofFields (Data.inOrder symbol.fields)).toExcept modelName = _
  rw [ofFields, record, Schema.optional_eq foundVersion version, Schema.required_eq foundKey key]
  rfl

end SymbolArtifact

namespace Table

variable (table : Table)

theorem isWritable_symbolArtifacts {symbol : SymbolArtifact}
    (listed : symbol ∈ table.symbolArtifacts) : Json.isWritable symbol.toData = true := by
  obtain ⟨entry, -, rfl⟩ := List.mem_map.mp listed
  have version : -signedBound ≤ schemaVersion ∧ schemaVersion < unsignedBound := by decide
  exact SymbolArtifact.isWritable_toData _ version

theorem splitOn_symbolsText :
    (Text.encode table.symbolsText).toList.splitOn 10 =
      table.symbolArtifacts.map (fun symbol => Text.utf8 (Json.compact symbol.toData)) ++ [[]] := by
  have free : ∀ line ∈ table.symbolArtifacts.map fun symbol => Json.compact symbol.toData,
      '\n' ∉ line := by
    intro line listed
    obtain ⟨symbol, -, rfl⟩ := List.mem_map.mp listed
    exact Json.newline_notMem_compact symbol.exact_toData
  rw [symbolsText, Json.lines, Text.toList_encode, List.flatMap_map]
  simpa only [List.flatMap_map, List.map_map, Function.comp_def] using
    Text.splitOn_utf8_lines free

theorem mem_symbolArtifacts_iff {symbol : SymbolArtifact} :
    symbol ∈ table.symbolArtifacts ↔
      table.get? symbol.key = some symbol.record ∧ symbol.version = schemaVersion := by
  rw [symbolArtifacts, List.mem_map]
  constructor
  · rintro ⟨⟨key, record⟩, listed, rfl⟩
    exact ⟨(table.mem_entries_iff _ _).mp (List.mem_mergeSort.mp listed), rfl⟩
  · rintro ⟨found, version⟩
    obtain ⟨record, _, key⟩ := symbol
    cases version
    exact ⟨(key, record), List.mem_mergeSort.mpr ((table.mem_entries_iff _ _).mpr found), rfl⟩

end Table

/-- A line of bytes that gives a symbol back, with the kind as its type and with the version of the
schema. -/
structure SymbolArtifact.ShownBy (symbol : SymbolArtifact) (line : List UInt8) : Prop where
  /-- The line is not empty. -/
  nonempty : line ≠ []
  /-- It is JSON that fits the schema of a symbol. -/
  decodes : ∃ data, Artifact.decodeJson? line = some data ∧ ofData data = .ok symbol ∧
    data.field? "type" = some (Record.textData? (symbol.record.kind.map Kind.label)) ∧
    data.field? "schema_version" = some (.int symbol.version)

theorem SymbolArtifact.shownBy_compact (symbol : SymbolArtifact)
    (writable : Json.isWritable symbol.toData = true) :
    symbol.ShownBy (Text.utf8 (Json.compact symbol.toData)) := by
  have decoded := Artifact.decodeJson?_compact symbol.exact_toData writable
  refine ⟨?_, _, decoded, symbol.ofData_sorted, ?_, ?_⟩
  · obtain ⟨inner, line⟩ := symbol.exists_utf8_compact
    rw [line]
    exact List.cons_ne_nil _ _
  · rw [sorted_toData]
    exact symbol.lookup_inOrder _
  · rw [sorted_toData]
    exact symbol.lookup_inOrder _

/-- The symbols artifact keeps a table without loss, whatever characters its texts hold: its bytes
fall at line feeds into lines, each of which shows one symbol, with nothing after the last line
feed; the keys of the symbols increase from line to line, and they are the keys of the table with
their records. -/
theorem Table.symbolsText_lossless (table : Table) :
    ∃ lines symbols, (Text.encode table.symbolsText).toList.splitOn 10 = lines ++ [[]] ∧
      List.Forall₂ SymbolArtifact.ShownBy symbols lines ∧
      (symbols.map SymbolArtifact.key).Pairwise (· < ·) ∧
      ∀ symbol, symbol ∈ symbols ↔
        table.get? symbol.key = some symbol.record ∧ symbol.version = 1 := by
  refine ⟨_, table.symbolArtifacts, table.splitOn_symbolsText, ?_, ?_, fun symbol =>
    table.mem_symbolArtifacts_iff⟩
  · rw [List.forall₂_map_right_iff, List.forall₂_same]
    exact fun symbol listed => symbol.shownBy_compact (table.isWritable_symbolArtifacts listed)
  · rw [symbolArtifacts, List.map_map]
    exact pairwise_lt_mergeSort_first table.records.distinct

end CallGraph
