import CallGraph.Artifact.Validation
import Mathlib.Data.List.Induction

/-!
# What a check of the symbols finds

The check goes through the lines and keeps in mind which problems with versions it has told already.
What it tells is said here without that memory: every line that is no symbol is told, at its number,
and of the lines without a version, as of those with a wrong one, the first is told.  Nothing is
told exactly when every line that is not blank holds a symbol with a version that is in order.  None
of this depends on how a line is decoded or how a symbol is taken from its data.
-/

namespace CallGraph

/-- What a problem with a line of the symbols is about. -/
inductive LineTopic where
  /-- The line is no symbol. -/
  | fault
  /-- The symbol has another version. -/
  | otherVersion
  /-- The symbol has no version. -/
  | noVersion
  /-- It is no problem with a line. -/
  | elsewhere
  deriving DecidableEq, Repr

/-- What a problem is about. -/
def Problem.topic : Problem → LineTopic
  | invalidJson | schemaMismatch _ => .fault
  | versionMismatch _ => .otherVersion
  | versionMissing => .noVersion
  | _ => .elsewhere

namespace Artifact

/-! ## Single lines -/

/-- A line without the blanks around it. -/
def stripped (line : List UInt8) : List UInt8 := Text.dropAround isBlankByte line

namespace LineReader

variable (reader : LineReader)

/-- The symbol that a line holds, with the data it was taken from. -/
def symbolOn? (line : List UInt8) : Option (Data × SymbolArtifact) :=
  if stripped line = [] then none
  else
    (reader.decode (stripped line)).bind fun data =>
      match reader.validate data with
      | .ok symbol => some (data, symbol)
      | .error _ => none

/-- Why a line that is not blank holds no symbol. -/
def fault? (line : List UInt8) : Option Problem :=
  if stripped line = [] then none
  else
    match reader.decode (stripped line) with
    | none => some .invalidJson
    | some data =>
        match reader.validate data with
        | .ok _ => none
        | .error mismatch => some (.schemaMismatch mismatch)

/-- That the symbol on a line comes without a version. -/
def noVersion? (line : List UInt8) : Option Problem :=
  (reader.symbolOn? line).bind fun held =>
    if (held.1.field? "schema_version").isNone then some .versionMissing else none

/-- That the symbol on a line comes with another version than the known one. -/
def otherVersion? (line : List UInt8) : Option Problem :=
  (reader.symbolOn? line).bind fun held =>
    if (held.1.field? "schema_version").isSome ∧ held.2.version ≠ schemaVersion then
      some (.versionMismatch held.2.version)
    else none

/-- A line is in order: it holds a symbol, its version is the known one if it has one, and it has
one where versions are required. -/
def InOrder (strict : Bool) (line : List UInt8) : Prop :=
  ∃ data symbol, reader.decode (stripped line) = some data ∧
    reader.validate data = .ok symbol ∧
    ((data.field? "schema_version").isSome → symbol.version = schemaVersion) ∧
    (strict = true → (data.field? "schema_version").isSome)

theorem topic_of_fault? (line : List UInt8) (problem : Problem)
    (told : reader.fault? line = some problem) : problem.topic = .fault := by
  unfold fault? at told
  split at told
  · cases told
  · split at told
    · cases told
      rfl
    · split at told <;> cases told
      rfl

theorem topic_of_noVersion? (line : List UInt8) (problem : Problem)
    (told : reader.noVersion? line = some problem) : problem.topic = .noVersion := by
  obtain ⟨held, -, told⟩ := Option.bind_eq_some_iff.mp told
  split at told <;> cases told
  rfl

theorem topic_of_otherVersion? (line : List UInt8) (problem : Problem)
    (told : reader.otherVersion? line = some problem) : problem.topic = .otherVersion := by
  obtain ⟨held, -, told⟩ := Option.bind_eq_some_iff.mp told
  split at told <;> cases told
  rfl

/-- There is nothing to tell of a blank line. -/
theorem tells_nothing_of_blank {line : List UInt8} (blank : stripped line = []) :
    reader.fault? line = none ∧ reader.otherVersion? line = none ∧
      reader.noVersion? line = none := by
  simp [fault?, otherVersion?, noVersion?, symbolOn?, blank]

variable {reader} {strict : Bool} {line : List UInt8}

/-- A line that is not blank is in order iff nothing is to be told of it. -/
theorem inOrder_iff (notBlank : stripped line ≠ []) :
    reader.InOrder strict line ↔
      reader.fault? line = none ∧ reader.otherVersion? line = none ∧
        (strict = true → reader.noVersion? line = none) := by
  unfold InOrder fault? otherVersion? noVersion? symbolOn?
  simp only [if_neg notBlank]
  cases reader.decode (stripped line) with
  | none => simp
  | some data =>
      cases taken : reader.validate data with
      | error mismatch => simp [taken]
      | ok symbol =>
          cases given : data.field? "schema_version" <;> simp [taken, given]

end LineReader

/-! ## Findings -/

theorem Report.mk_append (errors more warnings others : List Finding) :
    (⟨errors, warnings⟩ : Report) ++ ⟨more, others⟩ = ⟨errors ++ more, warnings ++ others⟩ :=
  rfl

/-- A finding on a line of the symbols. -/
def lineFinding (path : String) (number : Nat) (problem : Problem) : Finding :=
  { artifact := "symbols", problem, path := some path, line := some number }

/-- A finding for every line that shows a problem, lines numbered from one on. -/
def everyFinding (path : String) (shows : List UInt8 → Option Problem)
    (lines : List (List UInt8)) : List Finding :=
  (lines.zipIdx 1).filterMap fun entry => (shows entry.1).map (lineFinding path entry.2)

/-- A finding for the first line that shows a problem. -/
def firstFinding (path : String) (shows : List UInt8 → Option Problem)
    (lines : List (List UInt8)) : Option Finding :=
  (lines.zipIdx 1).findSome? fun entry => (shows entry.1).map (lineFinding path entry.2)

section Concat

variable (path : String) (shows : List UInt8 → Option Problem) (lines : List (List UInt8))
  (line : List UInt8)

theorem everyFinding_concat :
    everyFinding path shows (lines ++ [line]) =
      everyFinding path shows lines ++
        ((shows line).map (lineFinding path (1 + lines.length))).toList := by
  rw [everyFinding, List.zipIdx_append, List.filterMap_append, everyFinding]
  cases found : shows line <;> simp [found]

theorem firstFinding_concat :
    firstFinding path shows (lines ++ [line]) =
      (firstFinding path shows lines).or
        ((shows line).map (lineFinding path (1 + lines.length))) := by
  rw [firstFinding, List.zipIdx_append, List.findSome?_append, firstFinding]
  cases found : shows line <;> simp [found]

theorem firstFinding_eq_none_iff :
    firstFinding path shows lines = none ↔ ∀ line ∈ lines, shows line = none := by
  induction lines using List.reverseRecOn with
  | nil => exact ⟨nofun, fun _ => rfl⟩
  | append_singleton lines line induction =>
      rw [firstFinding_concat, Option.or_eq_none_iff, induction, Option.map_eq_none_iff,
        List.forall_mem_append, List.forall_mem_singleton]

theorem everyFinding_eq_nil_iff :
    everyFinding path shows lines = [] ↔ ∀ line ∈ lines, shows line = none := by
  induction lines using List.reverseRecOn with
  | nil => exact ⟨nofun, fun _ => rfl⟩
  | append_singleton lines line induction =>
      rw [everyFinding_concat, List.append_eq_nil_iff, induction, List.forall_mem_append,
        List.forall_mem_singleton]
      simp

theorem SymbolsCheck.takeLines_concat (check : SymbolsCheck) (reader : LineReader) (strict : Bool)
    (finding : Nat → Problem → Finding) (number : Nat) :
    check.takeLines reader strict finding number (lines ++ [line]) =
      (check.takeLines reader strict finding number lines).take strict
        (finding (number + lines.length)) (reader.judge line) := by
  induction lines generalizing check number with
  | nil => rfl
  | cons first lines induction =>
      rw [List.cons_append, SymbolsCheck.takeLines, induction, SymbolsCheck.takeLines,
        List.length_cons, Nat.add_assoc, Nat.add_comm 1]

end Concat

/-! ## The whole check -/

/-- What is told of a line in a check that has told of some versions already. -/
def toldOf (check : SymbolsCheck) (reader : LineReader) (strict : Bool)
    (finding : Problem → Finding) (line : List UInt8) : Report where
  errors :=
    ((reader.fault? line).map finding).toList ++
      (if check.mismatchReported then []
        else ((reader.otherVersion? line).map finding).toList) ++
      if strict && !check.missingReported then ((reader.noVersion? line).map finding).toList else []
  warnings :=
    if strict || check.missingReported then []
    else ((reader.noVersion? line).map finding).toList

theorem judge_eq (reader : LineReader) (line : List UInt8) :
    reader.judge line =
      if stripped line = [] then .blank
      else
        match reader.decode (stripped line) with
        | none => .bad .invalidJson
        | some data =>
            match reader.validate data with
            | .error mismatch => .bad (.schemaMismatch mismatch)
            | .ok symbol => .good (givenVersion data symbol.version) := by
  rw [LineReader.judge]
  simp only [List.isEmpty_iff]
  rfl

/-- A verdict is taken by telling of it and keeping in mind what was told. -/
theorem take_judge (check : SymbolsCheck) (reader : LineReader) (strict : Bool)
    (finding : Problem → Finding) (line : List UInt8) :
    check.take strict finding (reader.judge line) =
      { report := check.report ++ toldOf check reader strict finding line
        missingReported := check.missingReported || (reader.noVersion? line).isSome
        mismatchReported := check.mismatchReported || (reader.otherVersion? line).isSome } := by
  obtain ⟨⟨errors, warnings⟩, missing, mismatch⟩ := check
  rw [judge_eq, toldOf]
  by_cases blank : stripped line = []
  · obtain ⟨noFault, noOther, noMissing⟩ := reader.tells_nothing_of_blank blank
    simp [blank, noFault, noOther, noMissing, SymbolsCheck.take, Report.mk_append]
  · simp only [LineReader.fault?, LineReader.noVersion?, LineReader.otherVersion?,
      LineReader.symbolOn?, if_neg blank]
    cases reader.decode (stripped line) with
    | none => simp [SymbolsCheck.take, Report.error, Report.mk_append]
    | some data =>
        cases taken : reader.validate data with
        | error mismatch => simp [taken, SymbolsCheck.take, Report.error, Report.mk_append]
        | ok symbol =>
            cases given : data.field? "schema_version" with
            | none =>
                cases missing <;> cases strict <;>
                  simp [taken, given, givenVersion, SymbolsCheck.take, checkVersion, Report.error,
                    Report.mk_append]
            | some version =>
                by_cases known : symbol.version = schemaVersion
                · simp [taken, given, givenVersion, SymbolsCheck.take, known, Report.mk_append]
                · cases mismatch <;>
                    simp [taken, given, givenVersion, SymbolsCheck.take, checkVersion, known,
                      Report.error, Report.mk_append]

section Told

variable {shown : Option Problem} {topic : LineTopic}
  (about : ∀ problem, shown = some problem → problem.topic = topic)
include about

theorem topic_of_told {path : String} {number : Nat} {found : Finding}
    (told : found ∈ (shown.map (lineFinding path number)).toList) :
    found.problem.topic = topic := by
  obtain ⟨problem, isShown, rfl⟩ := Option.map_eq_some_iff.mp (Option.mem_toList.mp told)
  exact about problem isShown

theorem filter_told (path : String) (number : Nat) (wanted : LineTopic) :
    ((shown.map (lineFinding path number)).toList).filter (·.problem.topic = wanted) =
      if topic = wanted then (shown.map (lineFinding path number)).toList else [] := by
  split
  · next same =>
      exact List.filter_eq_self.mpr fun found told =>
        decide_eq_true ((topic_of_told about told).trans same)
  · next different =>
      exact List.filter_eq_nil_iff.mpr fun found told same =>
        different ((topic_of_told about told).symm.trans (of_decide_eq_true same))

end Told

/-- What a check has told of lines. -/
structure Tells (reader : LineReader) (path : String) (strict : Bool)
    (lines : List (List UInt8)) (check : SymbolsCheck) : Prop where
  /-- It remembers whether it has told of a missing version. -/
  missing : check.missingReported = (firstFinding path reader.noVersion? lines).isSome
  /-- It remembers whether it has told of a wrong version. -/
  mismatch : check.mismatchReported = (firstFinding path reader.otherVersion? lines).isSome
  /-- It has told of every line that is no symbol. -/
  faults : check.report.errors.filter (·.problem.topic = .fault) =
    everyFinding path reader.fault? lines
  /-- It has told of the first wrong version. -/
  others : check.report.errors.filter (·.problem.topic = .otherVersion) =
    (firstFinding path reader.otherVersion? lines).toList
  /-- Where versions are required, it has told of the first missing one as an error. -/
  required : check.report.errors.filter (·.problem.topic = .noVersion) =
    if strict then (firstFinding path reader.noVersion? lines).toList else []
  /-- Where they are not, it has told of it as a warning. -/
  optional : check.report.warnings =
    if strict then [] else (firstFinding path reader.noVersion? lines).toList
  /-- It has told of nothing else. -/
  only : ∀ found ∈ check.report.errors, found.problem.topic ≠ .elsewhere

namespace Tells

variable {reader : LineReader} {path : String} {strict : Bool} {lines : List (List UInt8)}
  {check : SymbolsCheck}

theorem take (tells : Tells reader path strict lines check) (line : List UInt8) :
    Tells reader path strict (lines ++ [line])
      (check.take strict (lineFinding path (1 + lines.length)) (reader.judge line)) := by
  have fault := filter_told (reader.topic_of_fault? line) path (1 + lines.length)
  have other := filter_told (reader.topic_of_otherVersion? line) path (1 + lines.length)
  have without := filter_told (reader.topic_of_noVersion? line) path (1 + lines.length)
  obtain ⟨missing, mismatch, faults, others, required, optional, only⟩ := tells
  obtain ⟨⟨errors, warnings⟩, missingReported, mismatchReported⟩ := check
  dsimp only at missing mismatch faults others required optional only
  rw [take_judge, toldOf, Report.mk_append]
  subst missing mismatch
  constructor
  · simp [firstFinding_concat]
  · simp [firstFinding_concat]
  · simp [List.filter_append, apply_ite (List.filter _), fault, other, without, faults,
      everyFinding_concat]
  · simp only [List.filter_append, apply_ite (List.filter _), fault, other, without, others,
      firstFinding_concat]
    cases firstFinding path reader.otherVersion? lines <;> simp
  · simp only [List.filter_append, apply_ite (List.filter _), fault, other, without, required,
      firstFinding_concat]
    cases firstFinding path reader.noVersion? lines <;> cases strict <;> simp
  · simp only [optional, firstFinding_concat]
    cases firstFinding path reader.noVersion? lines <;> cases strict <;> simp
  · intro found told
    simp only [List.mem_append, List.mem_ite_nil_left, List.mem_ite_nil_right] at told
    rcases told with earlier | (isFault | ⟨-, isOther⟩) | ⟨-, isWithout⟩
    · exact only found earlier
    · simp [topic_of_told (reader.topic_of_fault? line) isFault]
    · simp [topic_of_told (reader.topic_of_otherVersion? line) isOther]
    · simp [topic_of_told (reader.topic_of_noVersion? line) isWithout]

theorem takeLines (lines : List (List UInt8)) :
    Tells reader path strict lines
      (({} : SymbolsCheck).takeLines reader strict (lineFinding path) 1 lines) := by
  induction lines using List.reverseRecOn with
  | nil => exact ⟨rfl, rfl, rfl, rfl, by cases strict <;> rfl, by cases strict <;> rfl, nofun⟩
  | append_singleton lines line induction =>
      rw [SymbolsCheck.takeLines_concat]
      exact induction.take line

/-- Nothing is told iff there is nothing to tell of any line. -/
theorem errors_eq_nil_iff (tells : Tells reader path strict lines check) :
    check.report.errors = [] ↔
      ∀ line ∈ lines, reader.fault? line = none ∧ reader.otherVersion? line = none ∧
        (strict = true → reader.noVersion? line = none) := by
  have required : (if strict then (firstFinding path reader.noVersion? lines).toList else []) = [] ↔
      ∀ line ∈ lines, strict = true → reader.noVersion? line = none := by
    cases strict with
    | false => simp
    | true => simp [firstFinding_eq_none_iff]
  have parts : check.report.errors = [] ↔
      everyFinding path reader.fault? lines = [] ∧
        (firstFinding path reader.otherVersion? lines).toList = [] ∧
        (if strict then (firstFinding path reader.noVersion? lines).toList else []) = [] := by
    rw [← tells.faults, ← tells.others, ← tells.required]
    constructor
    · intro empty
      simp [empty]
    · simp only [List.filter_eq_nil_iff, decide_eq_true_eq]
      rintro ⟨noFault, noOther, noMissing⟩
      refine List.eq_nil_iff_forall_not_mem.mpr fun found told => ?_
      cases topic : found.problem.topic with
      | fault => exact noFault found told topic
      | otherVersion => exact noOther found told topic
      | noVersion => exact noMissing found told topic
      | elsewhere => exact tells.only found told topic
  rw [parts, everyFinding_eq_nil_iff, Option.toList_eq_nil_iff, firstFinding_eq_none_iff, required]
  simp only [forall_and]

end Tells

/-- Taking lines is exact, however they are read.  It finds no error iff every line that is not
blank decodes, fits, has the known version if it has one, and has one where versions are required.
Of its findings those on lines that do not decode or fit are one for each such line, at its number;
one is on the first version that is another one; and one is on the first missing version, an error
where versions are required and a warning where they are not. -/
theorem takeLines_exact (reader : LineReader) (path : String) (lines : List (List UInt8))
    (strict : Bool) :
    let report := (({} : SymbolsCheck).takeLines reader strict (lineFinding path) 1 lines).report
    (report.errors = [] ↔ ∀ line ∈ lines, stripped line ≠ [] → reader.InOrder strict line) ∧
      report.errors.filter (·.problem.topic = .fault) = everyFinding path reader.fault? lines ∧
      report.errors.filter (·.problem.topic = .otherVersion) =
        (firstFinding path reader.otherVersion? lines).toList ∧
      report.errors.filter (·.problem.topic = .noVersion) =
        (if strict then (firstFinding path reader.noVersion? lines).toList else []) ∧
      report.warnings =
        if strict then [] else (firstFinding path reader.noVersion? lines).toList := by
  intro report
  have tells : Tells reader path strict lines
      (({} : SymbolsCheck).takeLines reader strict (lineFinding path) 1 lines) := .takeLines lines
  refine ⟨?_, tells.faults, tells.others, tells.required, tells.optional⟩
  refine tells.errors_eq_nil_iff.trans (forall₂_congr fun line _ => ?_)
  by_cases blank : stripped line = []
  · obtain ⟨noFault, noOther, noMissing⟩ := reader.tells_nothing_of_blank blank
    simp [blank, noFault, noOther, noMissing]
  · rw [← LineReader.inOrder_iff blank]
    exact ⟨fun inOrder _ => inOrder, fun inOrder => inOrder blank⟩

/-- The check of the symbols is exact: it takes the lines of its file, read as JSON that fits the
schema. -/
theorem checkSymbols_exact (path : String) (bytes : ByteArray) (strict : Bool) :
    let lines := bytes.toList.splitOn 10
    let report := checkSymbols path (some bytes) strict
    let reader := LineReader.json
    (report.errors = [] ↔ ∀ line ∈ lines, stripped line ≠ [] → reader.InOrder strict line) ∧
      report.errors.filter (·.problem.topic = .fault) = everyFinding path reader.fault? lines ∧
      report.errors.filter (·.problem.topic = .otherVersion) =
        (firstFinding path reader.otherVersion? lines).toList ∧
      report.errors.filter (·.problem.topic = .noVersion) =
        (if strict then (firstFinding path reader.noVersion? lines).toList else []) ∧
      report.warnings =
        if strict then [] else (firstFinding path reader.noVersion? lines).toList :=
  takeLines_exact .json path (bytes.toList.splitOn 10) strict

end Artifact

end CallGraph
