import CallGraph.Proofs.Json.RoundTrip
import CallGraph.Proofs.TableText.Blocks
import CallGraph.Symbol.Schema

/-!
# Data that fits

What is written of texts, lists of texts, maps and records fits the schema under which it is taken
again, also after the printer has put the fields of objects in order.
-/

namespace CallGraph

/-! ## Fields in order -/

namespace Data

/-- The order of the fields does not show when they are looked up. -/
theorem lookup_inOrder {fields : List (String × Data)}
    (distinct : (fields.map Prod.fst).Nodup) (name : String) :
    (inOrder fields).lookup name = fields.lookup name :=
  lookup_mergeSort_first distinct name

theorem sortedItems_map_eq_self {α : Type} {write : α → Data} (values : List α)
    (each : ∀ value ∈ values, (write value).sorted = write value) :
    sortedItems (values.map write) = values.map write := by
  rw [sortedItems_eq_map, List.map_map]
  exact List.map_congr_left each

theorem sortedFields_eq_self {fields : List (String × Data)}
    (each : ∀ field ∈ fields, field.2.sorted = field.2) : sortedFields fields = fields := by
  rw [sortedFields_eq_map]
  refine (List.map_congr_left fun field member => ?_).trans (List.map_id fields)
  rw [each field member]
  rfl

end Data

/-! ## Checks that succeed -/

namespace Schema

open Checked

variable {α : Type} {fields : List (String × Data)} {name : String} {value : Data}
  {check : Data → Checked α} {result : α}

theorem optional_eq (found : fields.lookup name = some value) (fits : check value = fine result)
    (default : α) : optional fields name check default = fine result := by
  rw [optional, found]
  change (check value).within name = _
  rw [fits]
  rfl

theorem required_eq (found : fields.lookup name = some value) (fits : check value = fine result) :
    required fields name check = fine result := by
  rw [required, found]
  change (check value).within name = _
  rw [fits]
  rfl

theorem list_map_eq {item : Data → Checked α} {write : α → Data} {values : List α}
    (each : ∀ value ∈ values, item (write value) = fine value) :
    list item (.list (values.map write)) = fine values := by
  have all_eq (start : Nat) : all (((values.map write).zipIdx start).map fun entry =>
      (item entry.1).within (toString entry.2)) = fine values := by
    induction values generalizing start with
    | nil => rfl
    | cons value values induction =>
        rw [List.forall_mem_cons] at each
        rw [List.map_cons, List.zipIdx_cons, List.map_cons, all, induction each.2, each.1]
        rfl
  exact all_eq 0

theorem dict_map_eq {β : Type} {count : Data → Checked β} {write : α → Data} {result : α → β}
    {entries : List (String × α)}
    (each : ∀ entry ∈ entries, count (write entry.2) = fine (result entry.2)) :
    dict count (.object (entries.map fun entry => (entry.1, write entry.2))) =
      fine (entries.map fun entry => (entry.1, result entry.2)) := by
  rw [dict]
  induction entries with
  | nil => rfl
  | cons entry entries induction =>
      rw [List.forall_mem_cons] at each
      rw [List.map_cons, List.map_cons, all, induction each.2, each.1]
      rfl

end Schema

/-! ## Records -/

namespace Record

open Schema Checked

theorem exact_textsData (texts : List String) : (textsData texts).Exact := by
  refine .list _ fun item member => ?_
  obtain ⟨text, -, rfl⟩ := List.mem_map.mp member
  exact .text text

theorem sorted_textsData (texts : List String) : (textsData texts).sorted = textsData texts := by
  rw [textsData, Data.sorted, Data.sortedItems_map_eq_self]
  exact fun text _ => by simp only [Data.sorted]

theorem fits_textsData (depth : Nat) (texts : List String) :
    Json.fits (depth + 1) (textsData texts) = true := by
  simp only [textsData, Json.fits, Nat.zero_lt_succ, decide_true, Bool.true_and, Json.itemsFit_iff]
  intro item member
  obtain ⟨text, -, rfl⟩ := List.mem_map.mp member
  simp only [Json.fits]

theorem list_textsData (texts : List String) : list text (textsData texts) = fine texts :=
  list_map_eq fun _ _ => rfl

theorem exact_textData? (text : Option String) : (textData? text).Exact := by
  cases text
  · exact .null
  · exact .text _

theorem sorted_textData? (text : Option String) : (textData? text).sorted = textData? text := by
  cases text <;> simp only [textData?, Data.sorted]

theorem fits_textData? (depth : Nat) (text : Option String) :
    Json.fits depth (textData? text) = true := by
  cases text <;> simp only [textData?, Json.fits]

theorem wordOrNull_textData? {α : Type} {label : α → String} {ofWord? : String → Option α}
    (ofWord?_label : ∀ value, ofWord? (label value) = some value) (value : Option α) :
    wordOrNull ofWord? (textData? (value.map label)) = fine value := by
  cases value with
  | none => rfl
  | some value =>
      rw [Option.map_some, textData?, wordOrNull, ofWord?_label]

/-- A record is taken from fields in which it is found. -/
theorem ofFields_eq {record : Record} {fields : List (String × Data)}
    (found : ∀ name value, record.toFields.lookup name = some value →
      fields.lookup name = some value) :
    ofFields fields = fine record := by
  have typed : fields.lookup "type" = some (textData? (record.kind.map Kind.label)) :=
    found "type" _ rfl
  have kind : kindField fields = "type" := by simp [kindField, typed]
  have ofKind (kind : Kind) : Kind.ofLabel? kind.label = some kind :=
    (Kind.ofLabel?_eq_some_iff _ _).mpr rfl
  have ofVisibility (visibility : Visibility) :
      Visibility.ofLabel? visibility.label = some visibility :=
    (Visibility.ofLabel?_eq_some_iff _ _).mpr rfl
  have isText : text (.text record.name) = fine record.name := rfl
  rw [ofFields, kind, optional_eq (found "name" _ rfl) isText,
    optional_eq typed (wordOrNull_textData? ofKind _),
    optional_eq (found "visibility" _ rfl) (wordOrNull_textData? ofVisibility _),
    optional_eq (found "filename" _ rfl) (list_textsData _),
    optional_eq (found "references" _ rfl) (list_textsData _),
    optional_eq (found "referring" _ rfl) (list_textsData _),
    optional_eq (found "calls" _ rfl) (list_textsData _),
    optional_eq (found "called_by" _ rfl) (list_textsData _)]
  rfl

end Record

end CallGraph
