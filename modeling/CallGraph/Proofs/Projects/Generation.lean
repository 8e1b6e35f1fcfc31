import CallGraph.Proofs.Projects.Filling
import CallGraph.Proofs.Trees.RealPath

/-!
# What a generation does

Generation scans a project, and leaves out the directory below the root that the artifacts really go
to.  If the directory was not there, it is made, with those above it, and holds nothing but the
artifacts of the table that was built; everything else stays as it was.
-/

namespace CallGraph

open Work

variable {reader : IgnoreReader} {settings : Settings} {root directory : Path} {place : Place}
  {below : List String} {tree made after : Tree} {added : List (Place × Entry)}

/-- What is left out when artifacts are generated in a directory, by the real paths of the root and
of the directory. -/
def leftOut (settings : Settings) (realRoot realDirectory : Path) : String :=
  if (outputName realRoot realDirectory).isEmpty then settings.outputDir
  else outputName realRoot realDirectory

/-- Generate the artifacts of a project in a directory. -/
def generateIn (root : Path) (settings : Settings) (reader : IgnoreReader) (directory : Path) :
    Work Generated := do
  let realDirectory ← Work.resolve directory
  let realRoot ← Work.resolve root
  let table ← buildProject root settings (leftOut settings realRoot realDirectory) reader
  writeArtifacts table directory
  Work.report [.artifactsWritten table.size directory.render]
  return { table, directory }

theorem generate_given (root directory : Path) (settings : Settings) (reader : IgnoreReader) :
    generate root (some directory) (some settings) reader =
      generateIn root settings reader directory := rfl

theorem generate_default (root : Path) (settings : Settings) (reader : IgnoreReader) :
    generate root none (some settings) reader =
      resolveOutputDir root settings.outputDir >>= generateIn root settings reader := rfl

theorem outcome_resolve_eq_ok_iff {path real : Path} :
    (Work.resolve path).outcome tree = .ok real ↔ tree.resolve path = .ok real := by
  rw [(gives_resolve path).outcome_eq]
  cases tree.resolve path <;> simp [Except.mapError]

/-- Generation has built a table and written its artifacts. -/
theorem generateIn_of_ok {before finished : Workspace} {generated : Generated}
    (ended : generateIn root settings reader directory before = .ok generated finished) :
    ∃ realDirectory realRoot middle written, before.tree.resolve directory = .ok realDirectory ∧
      before.tree.resolve root = .ok realRoot ∧
      (buildProject root settings (leftOut settings realRoot realDirectory) reader).outcome
          before.tree = .ok generated.table ∧
      generated.directory = directory ∧ middle.tree = before.tree ∧
      writeArtifacts generated.table directory middle = .ok () written ∧
      finished.tree = written.tree := by
  obtain ⟨realDirectory, first, found, ended⟩ := bind_eq_ok_iff.mp ended
  obtain ⟨realRoot, second, rooted, ended⟩ := bind_eq_ok_iff.mp ended
  obtain ⟨table, third, built, ended⟩ := bind_eq_ok_iff.mp ended
  obtain ⟨⟨⟩, fourth, written, ended⟩ := bind_eq_ok_iff.mp ended
  obtain ⟨⟨⟩, fifth, ⟨⟩, ended⟩ := bind_eq_ok_iff.mp ended
  obtain ⟨rfl, rfl⟩ := pure_eq_ok_iff.mp ended
  obtain ⟨found, firstSame⟩ := (looks_resolve directory).of_ok found
  obtain ⟨rooted, secondSame⟩ := (looks_resolve root).of_ok rooted
  obtain ⟨built, thirdSame⟩ := (looks_buildProject root settings _ reader).of_ok built
  rw [secondSame, firstSame] at built thirdSame
  rw [firstSame] at rooted
  exact ⟨realDirectory, realRoot, third, fourth, outcome_resolve_eq_ok_iff.mp found,
    outcome_resolve_eq_ok_iff.mp rooted, built, rfl, thirdSame, written, rfl⟩

/-- The artifacts of a project are generated in an empty directory if its table can be built. -/
theorem exists_generateIn {table : Table} {realDirectory realRoot : Path} {journal : List Event}
    (found : tree.resolve directory = .ok realDirectory)
    (rooted : tree.resolve root = .ok realRoot)
    (built : (buildProject root settings (leftOut settings realRoot realDirectory) reader).outcome
      tree = .ok table)
    (written : ∀ journal,
      writeArtifacts table directory ⟨tree, journal⟩ = .ok () ⟨after, journal⟩) :
    ∃ later, generateIn root settings reader directory ⟨tree, journal⟩ =
      .ok ⟨table, directory⟩ ⟨after, later⟩ := by
  obtain ⟨first, found⟩ := @Looks.exists_ok _ _ _ ⟨tree, journal⟩ (looks_resolve directory)
    (outcome_resolve_eq_ok_iff.mpr found)
  obtain ⟨second, rooted⟩ := @Looks.exists_ok _ _ _ ⟨tree, first⟩ (looks_resolve root)
    (outcome_resolve_eq_ok_iff.mpr rooted)
  obtain ⟨third, built⟩ := @Looks.exists_ok _ _ _ ⟨tree, second⟩
    (looks_buildProject root settings _ reader) built
  rw [generateIn, bind_of_ok found, bind_of_ok rooted, bind_of_ok built, bind_of_ok (written third)]
  exact ⟨_, rfl⟩

theorem exists_generateIn_error {failure : Failure} {realDirectory realRoot : Path}
    {journal : List Event} (found : tree.resolve directory = .ok realDirectory)
    (rooted : tree.resolve root = .ok realRoot)
    (built : (buildProject root settings (leftOut settings realRoot realDirectory) reader).outcome
      tree = .error failure) :
    ∃ later, generateIn root settings reader directory ⟨tree, journal⟩ =
      .error failure ⟨tree, later⟩ := by
  obtain ⟨first, found⟩ := @Looks.exists_ok _ _ _ ⟨tree, journal⟩ (looks_resolve directory)
    (outcome_resolve_eq_ok_iff.mpr found)
  obtain ⟨second, rooted⟩ := @Looks.exists_ok _ _ _ ⟨tree, first⟩ (looks_resolve root)
    (outcome_resolve_eq_ok_iff.mpr rooted)
  obtain ⟨third, built⟩ := @Looks.exists_error _ _ _ ⟨tree, second⟩
    (looks_buildProject root settings _ reader) built
  rw [generateIn, bind_of_ok found, bind_of_ok rooted]
  exact ⟨third, bind_eq_error_iff.mpr (.inl built)⟩

/-! ## After a generation -/

/-- The directory that settings name is the real path of some path. -/
theorem exists_resolve_of_resolveOutputDir {outputDir : String} {before finished : Workspace}
    (found : resolveOutputDir root outputDir before = .ok directory finished) :
    outputDir ≠ "" ∧ finished.tree = before.tree ∧
      ∃ path, before.tree.resolve path = .ok directory := by
  have same := ((looks_resolveOutputDir root outputDir).of_ok found).2
  unfold resolveOutputDir at found
  split at found
  · obtain ⟨_, _, ⟨⟩, -⟩ := bind_eq_ok_iff.mp found
  next nonempty =>
  dsimp only at found
  split at found
  · obtain ⟨_, _, ⟨⟩, -⟩ := bind_eq_ok_iff.mp found
  obtain ⟨realRoot, first, rooted, found⟩ := bind_eq_ok_iff.mp found
  obtain ⟨real, second, resolved, found⟩ := bind_eq_ok_iff.mp found
  split at found
  · obtain ⟨_, _, ⟨⟩, -⟩ := bind_eq_ok_iff.mp found
  obtain ⟨rfl, rfl⟩ := pure_eq_ok_iff.mp found
  obtain ⟨-, firstSame⟩ := (looks_resolve root).of_ok rooted
  obtain ⟨resolved, -⟩ := (looks_resolve _).of_ok resolved
  rw [firstSame] at resolved
  exact ⟨by simpa using nonempty, same, _, outcome_resolve_eq_ok_iff.mp resolved⟩

/-- The artifacts of a project were generated in the directory that its settings name, which was
not there and lies below the root. -/
structure GeneratedAnew (reader : IgnoreReader) (settings : Settings) (root : Path) (place : Place)
    (below : List String) (before finished : Workspace) (generated : Generated) : Prop where
  /-- The tree was well-formed. -/
  wellFormed : before.tree.WellFormed
  /-- The root led to a place. -/
  arrives : before.tree.walk .strict root = .ok place
  /-- A directory stood there. -/
  directory : before.tree.get? place = some .directory
  /-- The artifacts were generated. -/
  ended : generate root none (some settings) reader before = .ok generated finished
  /-- Their directory was not there. -/
  absent : before.tree.look generated.directory = .ok none
  /-- Their directory lies below the root. -/
  inside : finished.tree.walk .strict generated.directory = .ok (place ++ below)
  /-- No name on the way to it is empty. -/
  solid : "" ∉ below

/-- What a generation has done: it has made the directory of the artifacts, with those above it, and
filled it with the artifacts of the table that was built. -/
structure Aftermath (reader : IgnoreReader) (settings : Settings) (root : Path) (place : Place)
    (below : List String) (generated : Generated) (tree made after : Tree)
    (added : List (Place × Entry)) : Prop where
  /-- The directory was made. -/
  madeAt : tree.MadeAt made generated.directory (place ++ below) added
  /-- The tree is still well-formed. -/
  wellFormed : after.WellFormed
  /-- The directory was filled. -/
  grows : made.GrowsTo after (filled (place ++ below) generated.table.artifacts)
  /-- The paths of the artifacts are those of files. -/
  fine : ∀ file ∈ generated.table.artifacts,
    Tree.flaw? (generated.directory.child file.1) = none
  /-- The table was built. -/
  built : (buildProject root settings (leftOut settings ⟨"/", place⟩ ⟨"/", place ++ below⟩)
    reader).outcome tree = .ok generated.table
  /-- The settings name a directory. -/
  named : settings.outputDir ≠ ""

theorem unlinked_of_mem (directories : ∀ other ∈ added, other.2 = .directory) (spot : Place)
    (files : List (String × ByteArray)) :
    ∀ other ∈ added ++ filled spot files, ∀ target, other.2 ≠ .link target := by
  intro other member target
  rcases List.mem_append.mp member with early | late
  · simp [directories other early]
  · obtain ⟨file, -, rfl⟩ := List.mem_map.mp late
    simp

theorem GeneratedAnew.exists_aftermath {before finished : Workspace} {generated : Generated}
    (anew : GeneratedAnew reader settings root place below before finished generated) :
    ∃ made added,
      Aftermath reader settings root place below generated before.tree made finished.tree
        added := by
  have ended := anew.ended
  rw [generate_default] at ended
  obtain ⟨directory, first, located, ended⟩ := bind_eq_ok_iff.mp ended
  obtain ⟨named, firstSame, path, isReal⟩ := exists_resolve_of_resolveOutputDir located
  obtain ⟨realDirectory, realRoot, middle, written, found, rooted, built, rfl, middleSame, writes,
    finishes⟩ := generateIn_of_ok ended
  rw [firstSame] at found rooted built middleSame
  obtain ⟨absolute, noDots⟩ := Tree.plain_of_resolve isReal
  obtain ⟨_, ready, required, -⟩ := bind_eq_ok_iff.mp writes
  replace required := (change_eq_ok_iff.mp required).1
  rw [middleSame] at required
  obtain ⟨spot, added, madeAt⟩ := Tree.exists_madeAt_of_requireDirectories anew.wellFormed absolute
    noDots anew.absent required
  obtain ⟨growsWell, grows, fine⟩ := (madeAt.emptyAt anew.wellFormed).of_writeArtifacts
    (by rwa [middleSame]) writes
  rw [← finishes] at growsWell grows
  obtain rfl : spot = place ++ below :=
    Except.ok.inj ((Tree.walk_of_grows_ok grows madeAt.leads).symm.trans anew.inside)
  have unlinked := unlinked_of_mem (fun other member => (madeAt.onWay other member).1)
    (place ++ below) generated.table.artifacts
  have foundAt := Tree.resolve_of_grows anew.wellFormed (madeAt.grows.trans grows) growsWell
    unlinked anew.inside (grows.stays madeAt.stands)
  have rootedAt := Tree.resolve_of_walk anew.wellFormed anew.arrives anew.directory
  cases found.symm.trans foundAt
  cases rooted.symm.trans rootedAt
  exact ⟨ready.tree, added, madeAt, growsWell, grows, fine, built, named⟩

end CallGraph
