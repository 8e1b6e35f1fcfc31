import CallGraph.Project.Artifacts
import CallGraph.Proofs.Artifacts.Symbols
import CallGraph.Proofs.Summaries
import CallGraph.Proofs.TableText.RoundTrip

/-!
# Artifacts that are written are valid

What is written of a sound table passes the checks: the persisted table is read back and is sound,
every line of the symbols fits its schema, and so does the summary with all its counts, maps and
lists.
-/

namespace CallGraph

open Text

/-! ## The persisted table -/

namespace Table

theorem isSound_of_get?_eq {left right : Table} (same : ∀ key, left.get? key = right.get? key)
    (sound : left.isSound = true) : right.isSound = true := by
  have breaches : left.recordViolations = right.recordViolations := by
    have fields : left.fieldViolations = right.fieldViolations := by
      funext key record field
      unfold fieldViolations edgeViolation?
      simp only [same]
    funext key record
    rw [recordViolations, recordViolations, fields]
  have perm : left.violations.Perm right.violations := by
    rw [violations, violations, breaches]
    exact (entries_perm same).flatMap_right _
  rw [isSound, List.isEmpty_iff] at sound ⊢
  rw [sound] at perm
  exact perm.nil_eq.symm

theorem unifyNewlines_eq_self {letters : List Char} (free : '\r' ∉ letters) :
    unifyNewlines letters = letters := by
  induction letters with
  | nil => rfl
  | cons letter letters induction =>
      rw [List.mem_cons, not_or] at free
      rw [unifyNewlines.eq_3 _ _ fun _ same => absurd same.symm free.1, induction free.2,
        if_neg (by simpa using Ne.symm free.1)]

theorem Representable.fileText_format {table : Table} (representable : table.Representable) :
    fileText table.format = table.format := by
  have free : '\r' ∉ table.format.toList := by
    rw [format, String.toList_join]
    intro member
    obtain ⟨_, ended, inside⟩ := List.mem_flatMap.mp member
    obtain ⟨line, listed, rfl⟩ := List.mem_map.mp ended
    rw [String.toList_append, List.mem_append] at inside
    rcases inside with inside | ending
    · exact absurd (representable.oneLine line listed _ inside) (by decide)
    · exact absurd ending (by decide)
  rw [fileText, unifyNewlines_eq_self free, String.ofList_toList]

theorem findings_eq_nil_of_table {text : String} {path : Option String} {table : Table}
    (result : (read text path).table = some table) : (read text path).findings = [] := by
  unfold read readLines at result ⊢
  generalize TableText.State.finish _ = outcome at result ⊢
  obtain ⟨state, records⟩ := outcome
  dsimp only at result ⊢
  split at result
  · next clean => exact List.isEmpty_iff.mp clean
  · cases result

end Table

namespace Artifact

theorem checkTable_format {table : Table} (sound : table.isSound = true)
    (representable : table.Representable) (path : String) :
    checkTable path (readTable path (some (encode table.format))) = {} := by
  obtain ⟨again, result, same⟩ := Table.read_format representable (some path)
  have findings := Table.findings_eq_nil_of_table result
  have soundAgain := Table.isSound_of_get?_eq (fun key => (same key).symm) sound
  have reading : readTable path (some (encode table.format)) =
      Table.read table.format (some path) := by
    rw [readTable, Option.bind_some, decode?_encode]
    exact congrArg (Table.read · (some path)) representable.fileText_format
  rw [reading, checkTable, result, findings]
  dsimp only
  rw [Table.findings, List.isEmpty_iff.mp soundAgain]
  rfl

/-! ## The symbols -/

theorem judge_compact (symbol : SymbolArtifact)
    (writable : Json.isWritable symbol.toData = true) :
    LineReader.json.judge (utf8 (Json.compact symbol.toData)) = .good (some symbol.version) := by
  obtain ⟨inner, line⟩ := symbol.exists_utf8_compact
  have untouched : dropAround isBlankByte (utf8 (Json.compact symbol.toData)) =
      utf8 (Json.compact symbol.toData) := by
    rw [line, dropAround_eq_self_iff]
    constructor
    · intro first isFirst
      cases isFirst
      rfl
    · intro last isLast
      rw [← List.cons_append, List.getLast?_concat] at isLast
      cases isLast
      rfl
  have version : symbol.toData.sorted.field? "schema_version" = some (.int symbol.version) := by
    rw [SymbolArtifact.sorted_toData]
    exact symbol.lookup_inOrder _
  have present : (utf8 (Json.compact symbol.toData)).isEmpty = false := by
    rw [line]
    rfl
  simp only [LineReader.judge, LineReader.json, untouched, present,
    decodeJson?_compact symbol.exact_toData writable, symbol.ofData_sorted, givenVersion, version]
  rfl

theorem takeLines_eq_self (check : SymbolsCheck) {reader : LineReader} (strict : Bool)
    (finding : Nat → Problem → Finding) (number : Nat) {lines : List (List UInt8)}
    (clean : ∀ line ∈ lines, reader.judge line = .blank ∨
      reader.judge line = .good (some schemaVersion)) :
    check.takeLines reader strict finding number lines = check := by
  induction lines generalizing number with
  | nil => rfl
  | cons line lines induction =>
      rw [List.forall_mem_cons] at clean
      rw [SymbolsCheck.takeLines]
      rcases clean.1 with blank | good
      · rw [blank]
        exact induction _ clean.2
      · rw [good]
        exact induction _ clean.2

theorem checkSymbols_symbolsText (table : Table) (path : String) (strict : Bool) :
    checkSymbols path (some (encode table.symbolsText)) strict = {} := by
  have clean : ∀ line ∈ (encode table.symbolsText).toList.splitOn 10,
      LineReader.json.judge line = .blank ∨
        LineReader.json.judge line = .good (some schemaVersion) := by
    intro line listed
    rw [table.splitOn_symbolsText, List.mem_append, List.mem_map] at listed
    rcases listed with ⟨symbol, listed, rfl⟩ | last
    · have version := (table.mem_symbolArtifacts_iff.mp listed).2
      rw [judge_compact symbol (table.isWritable_symbolArtifacts listed), version]
      exact .inr rfl
    · rw [List.mem_singleton.mp last]
      exact .inl rfl
  exact congrArg SymbolsCheck.report (takeLines_eq_self {} strict _ 1 clean)

end Artifact

/-! ## The summary -/

namespace Summary

open Schema

theorem exact_countsData {counts : List (Key × Nat)} (distinct : (counts.map Prod.fst).Nodup) :
    (countsData counts).Exact := by
  refine .object _ (by simpa [Function.comp_def] using distinct) fun field member => ?_
  obtain ⟨entry, -, rfl⟩ := List.mem_map.mp member
  exact .int _

theorem sorted_countsData (counts : List (Key × Nat)) :
    (countsData counts).sorted =
      countsData (counts.mergeSort fun left right => decide (left.1 ≤ right.1)) := by
  rw [countsData, Data.sorted, Data.sortedFields_eq_self, Data.inOrder, mergeSort_map_second]
  · rfl
  · intro field member
    obtain ⟨entry, -, rfl⟩ := List.mem_map.mp member
    simp only [countData, Data.sorted]

variable (summary : Summary)

/-- The fields of a summary. -/
def fields : List (String × Data) :=
  [("schema_version", .int schemaVersion),
   ("symbol_count", countData summary.symbolCount),
   ("function_count", countData summary.functionCount),
   ("variable_count", countData summary.variableCount),
   ("public_count", countData summary.publicCount),
   ("private_count", countData summary.privateCount),
   ("call_edge_count", countData summary.callEdgeCount),
   ("reference_edge_count", countData summary.referenceEdgeCount),
   ("cycles", .list (summary.cycles.map Record.textsData)),
   ("fan_in", countsData summary.fanIn),
   ("fan_out", countsData summary.fanOut),
   ("top_functions", Record.textsData summary.topFunctions)]

theorem toData_eq : summary.toData = .object summary.fields := rfl

theorem names_nodup : (summary.fields.map Prod.fst).Nodup := by
  change ["schema_version", "symbol_count", "function_count", "variable_count", "public_count",
    "private_count", "call_edge_count", "reference_edge_count", "cycles", "fan_in", "fan_out",
    "top_functions"].Nodup
  decide

/-- What holds of all numbers, all lists of keys and both maps holds of every field. -/
theorem forall_fields (property : Data → Prop) (int : ∀ number, property (.int number))
    (texts : ∀ values, property (Record.textsData values))
    (cycles : property (.list (summary.cycles.map Record.textsData)))
    (fanIn : property (countsData summary.fanIn)) (fanOut : property (countsData summary.fanOut)) :
    ∀ field ∈ summary.fields, property field.2 := by
  simp only [fields, List.forall_mem_cons]
  exact ⟨int _, int _, int _, int _, int _, int _, int _, int _, cycles, fanIn, fanOut, texts _,
    fun _ member => absurd member List.not_mem_nil⟩

theorem exact_toData (fanIn : (summary.fanIn.map Prod.fst).Nodup)
    (fanOut : (summary.fanOut.map Prod.fst).Nodup) : summary.toData.Exact := by
  refine .object _ summary.names_nodup <| summary.forall_fields Data.Exact .int
    Record.exact_textsData (.list _ fun item member => ?_) (exact_countsData fanIn)
    (exact_countsData fanOut)
  obtain ⟨texts, -, rfl⟩ := List.mem_map.mp member
  exact Record.exact_textsData texts

/-- A summary with its maps in increasing order of their keys. -/
def inOrder : Summary :=
  { summary with
    fanIn := summary.fanIn.mergeSort fun left right => decide (left.1 ≤ right.1)
    fanOut := summary.fanOut.mergeSort fun left right => decide (left.1 ≤ right.1) }

theorem sorted_toData : summary.toData.sorted = .object (Data.inOrder summary.inOrder.fields) := by
  have cycles := Data.sortedItems_map_eq_self summary.cycles
    fun texts _ => Record.sorted_textsData texts
  rw [toData_eq, Data.sorted, Data.sortedFields_eq_map]
  simp only [fields, inOrder, List.map_cons, List.map_nil, sorted_countsData, cycles,
    Record.sorted_textsData, countData, Data.sorted]

/-- A summary as it is read back. -/
def artifact : SummaryArtifact where
  version := schemaVersion
  symbolCount := summary.symbolCount
  functionCount := summary.functionCount
  variableCount := summary.variableCount
  publicCount := summary.publicCount
  privateCount := summary.privateCount
  callEdgeCount := summary.callEdgeCount
  referenceEdgeCount := summary.referenceEdgeCount
  cycles := summary.cycles
  fanIn := summary.fanIn.map fun entry => (entry.1, (entry.2 : Int))
  fanOut := summary.fanOut.map fun entry => (entry.1, (entry.2 : Int))
  topFunctions := summary.topFunctions

theorem dict_countsData (counts : List (Key × Nat)) :
    dict integer (countsData counts) =
      .fine (counts.map fun entry => (entry.1, (entry.2 : Int))) :=
  dict_map_eq fun _ _ => rfl

theorem ofFields_inOrder :
    SummaryArtifact.ofFields (Data.inOrder summary.fields) = .fine summary.artifact := by
  have found (name : String) (value : Data) (given : summary.fields.lookup name = some value) :
      (Data.inOrder summary.fields).lookup name = some value :=
    (Data.lookup_inOrder summary.names_nodup name).trans given
  have isInteger (number : Int) : integer (.int number) = .fine number := rfl
  have isCount (count : Nat) : integer (countData count) = .fine (count : Int) := rfl
  have isCycles : list (list text) (.list (summary.cycles.map Record.textsData)) =
      .fine summary.cycles := list_map_eq fun texts _ => Record.list_textsData texts
  rw [SummaryArtifact.ofFields, optional_eq (found "schema_version" _ rfl) (isInteger _),
    required_eq (found "symbol_count" _ rfl) (isCount _),
    required_eq (found "function_count" _ rfl) (isCount _),
    required_eq (found "variable_count" _ rfl) (isCount _),
    required_eq (found "public_count" _ rfl) (isCount _),
    required_eq (found "private_count" _ rfl) (isCount _),
    required_eq (found "call_edge_count" _ rfl) (isCount _),
    required_eq (found "reference_edge_count" _ rfl) (isCount _),
    optional_eq (found "cycles" _ rfl) isCycles,
    optional_eq (found "fan_in" _ rfl) (dict_countsData _),
    optional_eq (found "fan_out" _ rfl) (dict_countsData _),
    optional_eq (found "top_functions" _ rfl) (Record.list_textsData _)]
  rfl

end Summary

namespace Table

theorem nodup_sortedCounts (counts : KeyMap Nat) : ((sortedCounts counts).map Prod.fst).Nodup :=
  nodup_mergeSort_first counts.distinct

theorem exact_summary (table : Table) (top : Int) : (table.summary top).toData.Exact :=
  Summary.exact_toData _ (nodup_sortedCounts _) (nodup_sortedCounts _)

/-- No text occurs more often than there are texts. -/
theorem le_of_mem_tally (texts : List String) :
    ∀ entry ∈ (tally texts).entries, entry.2 ≤ texts.length := by
  intro entry member
  rw [(mem_tally_iff.mp member).2]
  exact List.count_le_length

theorem fits_countData {depth count : Nat} (small : count < unsignedBound) :
    Json.fits depth (Summary.countData count) = true := by
  have notLess : -signedBound ≤ (count : Int) := by
    rw [signedBound]
    omega
  simp [Summary.countData, Json.fits, notLess, small]

theorem fits_countsData {depth bound : Nat} {counts : List (Key × Nat)}
    (small : bound < unsignedBound) (bounded : ∀ entry ∈ counts, entry.2 ≤ bound) :
    Json.fits (depth + 1) (Summary.countsData counts) = true := by
  simp only [Summary.countsData, Json.fits, Nat.zero_lt_succ, decide_true, Bool.true_and,
    Json.fieldsFit_iff]
  intro field member
  obtain ⟨entry, listed, rfl⟩ := List.mem_map.mp member
  have below := bounded entry listed
  exact fits_countData (by omega)

/-- The summary of a table can be written if its counts have room in 64 bits. -/
theorem isWritable_summary {table : Table} (symbols : table.size < unsignedBound)
    (calls : table.callEdges.length < unsignedBound)
    (references : (table.entries.flatMap fun entry => entry.2.references).length < unsignedBound) :
    Json.isWritable table.summary.toData = true := by
  have counted (test : Record → Bool) : (table.count test : Int) < unsignedBound := by
    have below : table.count test ≤ table.size := List.countP_le_length
    omega
  have functions : table.summary.functionCount < unsignedBound := by
    simpa only [summary] using counted _
  have objects : table.summary.variableCount < unsignedBound := by
    simpa only [summary] using counted _
  have exported : table.summary.publicCount < unsignedBound := by
    simpa only [summary] using counted _
  have hidden : table.summary.privateCount < unsignedBound := by
    simpa only [summary] using counted _
  have tallied (ends : Key × Key → Key) :
      ∀ entry ∈ sortedCounts (tally (table.callEdges.map ends)),
        entry.2 ≤ table.callEdges.length := by
    intro entry member
    simpa using le_of_mem_tally _ entry (List.mem_mergeSort.mp member)
  have cycles : ∀ item ∈ table.summary.cycles.map Record.textsData,
      Json.fits 252 item = true := by
    intro item member
    obtain ⟨texts, -, rfl⟩ := List.mem_map.mp member
    exact Record.fits_textsData _ texts
  have each : ∀ field ∈ table.summary.fields, Json.fits 253 field.2 = true := by
    simp only [Summary.fields, List.forall_mem_cons]
    refine ⟨by decide, fits_countData symbols, fits_countData functions, fits_countData objects,
      fits_countData exported, fits_countData hidden, fits_countData calls,
      fits_countData references, ?_, fits_countsData calls (tallied _),
      fits_countsData calls (tallied _), Record.fits_textsData _ _,
      fun _ member => absurd member List.not_mem_nil⟩
    simp only [Json.fits, Nat.zero_lt_succ, decide_true, Bool.true_and]
    exact Json.itemsFit_iff.mpr cycles
  rw [Json.isWritable, Json.writeDepth, Summary.toData_eq, Json.fits, Json.fieldsFit_iff.mpr each]
  rfl

end Table

theorem Artifact.checkSummary_summaryText {table : Table}
    (writable : Json.isWritable table.summary.toData = true) (path : String) (strict : Bool) :
    checkSummary path (some (encode table.summaryText)) strict = {} := by
  have decoded : decodeJson? (encode table.summaryText).toList =
      some (.object (Data.inOrder table.summary.inOrder.fields)) := by
    rw [Table.summaryText, decodeJson?_document (table.exact_summary _) writable,
      Summary.sorted_toData]
  have version : (Data.object (Data.inOrder table.summary.inOrder.fields)).field?
      "schema_version" = some (.int schemaVersion) :=
    Data.lookup_inOrder table.summary.inOrder.names_nodup _
  rw [checkSummary, Option.bind_some, decoded]
  dsimp only
  rw [Summary.ofFields_inOrder]
  simp only [Checked.toExcept, givenVersion, version]
  rfl

end CallGraph
