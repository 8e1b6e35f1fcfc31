import CallGraph.Project.Build
import CallGraph.Proofs.Reading.Moves
import Mathlib.Data.List.Forall2

/-!
# Building a table as reading units

Building a table from files comes down to two pure steps: every file gives a unit, and the units
are read one after another into a table, which is resolved.
-/

namespace CallGraph

namespace Work

theorem bind_eq_ok_iff {α β : Type} {action : Work α} {next : α → Work β}
    {workspace after : Workspace} {result : β} :
    (action >>= next) workspace = .ok result after ↔
      ∃ value middle, action workspace = .ok value middle ∧
        next value middle = .ok result after := by
  change EStateM.bind action next workspace = _ ↔ _
  unfold EStateM.bind
  cases action workspace with
  | error => simp
  | ok value middle =>
      constructor
      · exact fun ended => ⟨value, middle, rfl, ended⟩
      · rintro ⟨_, _, ⟨⟩, ended⟩
        exact ended

theorem pure_eq_ok_iff {α : Type} {value result : α} {workspace after : Workspace} :
    (pure value : Work α) workspace = .ok result after ↔ result = value ∧ after = workspace := by
  change EStateM.Result.ok value workspace = _ ↔ _
  rw [EStateM.Result.ok.injEq, eq_comm, @eq_comm _ workspace]

theorem read_eq_ok_iff {path : Path} {bytes : ByteArray} {workspace after : Workspace} :
    Work.read path workspace = .ok bytes after ↔
      workspace.tree.read path = .ok bytes ∧ after = workspace := by
  change Work.demand Failure.tree (workspace.tree.read path) workspace = _ ↔ _
  cases workspace.tree.read path with
  | error =>
      constructor
      · exact nofun
      · exact nofun
  | ok found =>
      change (pure found : Work ByteArray) workspace = _ ↔ _
      rw [pure_eq_ok_iff, Except.ok.injEq, eq_comm]

end Work

namespace Dump

/-- The unit of a dump file: its origin and the lines of its symbol table section. -/
def unitOf (root : Path) (suffix : String) (file : Path) (bytes : ByteArray) :
    Origin × List String :=
  (originOf file root suffix, symbolSection (Text.fileLines (Text.decodeLenient bytes)))

/-- A unit is that of a file in a tree. -/
def IsUnitOf (tree : Tree) (root : Path) (suffix : String) (file : Path)
    (unit : Origin × List String) : Prop :=
  ∃ bytes, tree.read file = .ok bytes ∧ unit = unitOf root suffix file bytes

theorem exists_file_of_mem {tree : Tree} {root : Path} {suffix : String} {files : List Path}
    {units : List (Origin × List String)}
    (unitsOf : List.Forall₂ (IsUnitOf tree root suffix) files units)
    {unit : Origin × List String} (member : unit ∈ units) :
    ∃ file ∈ files, IsUnitOf tree root suffix file unit := by
  induction unitsOf with
  | nil => cases member
  | @cons file _ _ _ first _ induction =>
      rcases List.mem_cons.mp member with rfl | later
      · exact ⟨file, List.mem_cons_self, first⟩
      · obtain ⟨other, otherMember, isUnit⟩ := induction later
        exact ⟨other, List.mem_cons_of_mem _ otherMember, isUnit⟩

end Dump

variable {root : Path} {suffix : String} {files : List Path} {workspace after : Workspace}
  {table result : Table}

/-- All files are taken from the tree as it is when building begins. -/
theorem forall₂_of_mapM_readSection (root : Path) (suffix : String)
    {sections : List (List String)}
    (read : files.mapM readSection workspace = .ok sections after) :
    after = workspace ∧
      List.Forall₂ (fun file lines =>
        Dump.IsUnitOf workspace.tree root suffix file (Dump.originOf file root suffix, lines))
        files sections := by
  induction files generalizing sections with
  | nil =>
      rw [List.mapM_nil, Work.pure_eq_ok_iff] at read
      obtain ⟨rfl, rfl⟩ := read
      exact ⟨rfl, .nil⟩
  | cons file files induction =>
      simp only [List.mapM_cons, readSection, Work.bind_eq_ok_iff, Work.pure_eq_ok_iff,
        Work.read_eq_ok_iff] at read
      obtain ⟨lines, _, ⟨bytes, _, ⟨found, rfl⟩, rfl, rfl⟩, others, _, rest, rfl, rfl⟩ := read
      obtain ⟨rfl, units⟩ := induction rest
      exact ⟨rfl, .cons ⟨bytes, found, rfl⟩ units⟩

theorem readLinesInto_of_readDump {dump : Path × List String}
    (read : readDump root suffix table dump workspace = .ok result after) :
    ∃ reader, Dump.readLinesInto table (Dump.originOf dump.1 root suffix) dump.2 = .ok () reader ∧
      reader.table = result := by
  obtain ⟨_, _, _, rest⟩ := Work.bind_eq_ok_iff.mp read
  cases unitRead : Dump.readLinesInto table (Dump.originOf dump.1 root suffix) dump.2 with
  | ok _ reader =>
      rw [unitRead] at rest
      obtain ⟨_, _, _, returned⟩ := Work.bind_eq_ok_iff.mp rest
      exact ⟨reader, rfl, (Work.pure_eq_ok_iff.mp returned).1.symm⟩
  | error error reader =>
      rw [unitRead] at rest
      obtain ⟨_, _, _, thrown⟩ := Work.bind_eq_ok_iff.mp rest
      cases thrown

theorem readUnitsInto_of_foldlM {tree : Tree} {sections : List (List String)}
    (units : List.Forall₂ (fun file lines =>
      Dump.IsUnitOf tree root suffix file (Dump.originOf file root suffix, lines)) files sections)
    (read : (files.zip sections).foldlM (readDump root suffix) table workspace =
      .ok result after) :
    ∃ units, List.Forall₂ (Dump.IsUnitOf tree root suffix) files units ∧
      Dump.readUnitsInto table units = .ok result := by
  induction units generalizing table workspace with
  | nil =>
      obtain ⟨rfl, -⟩ := Work.pure_eq_ok_iff.mp read
      exact ⟨[], .nil, rfl⟩
  | @cons file lines files sections unit _ induction =>
      rw [List.zip_cons_cons, List.foldlM_cons, Work.bind_eq_ok_iff] at read
      obtain ⟨_, middle, first, rest⟩ := read
      obtain ⟨reader, unitRead, rfl⟩ := readLinesInto_of_readDump first
      obtain ⟨units, unitsOf, unitsRead⟩ := induction rest
      refine ⟨(Dump.originOf file root suffix, lines) :: units, .cons unit unitsOf, ?_⟩
      rw [Dump.readUnitsInto, unitRead]
      exact unitsRead

/-- The table of some files is that of their units, resolved. -/
theorem readUnitsInto_of_buildFromFiles
    (built : buildFromFiles root suffix files workspace = .ok table after) :
    ∃ units parsed, List.Forall₂ (Dump.IsUnitOf workspace.tree root suffix) files units ∧
      Dump.readUnitsInto ∅ units = .ok parsed ∧ table = parsed.resolve := by
  obtain ⟨sections, _, taken, rest⟩ := Work.bind_eq_ok_iff.mp built
  obtain ⟨rfl, sectionsOf⟩ := forall₂_of_mapM_readSection root suffix taken
  obtain ⟨parsed, _, read, rest⟩ := Work.bind_eq_ok_iff.mp rest
  obtain ⟨units, unitsOf, unitsRead⟩ := readUnitsInto_of_foldlM sectionsOf read
  obtain ⟨_, _, _, returned⟩ := Work.bind_eq_ok_iff.mp rest
  exact ⟨units, parsed, unitsOf, unitsRead, (Work.pure_eq_ok_iff.mp returned).1⟩

end CallGraph
