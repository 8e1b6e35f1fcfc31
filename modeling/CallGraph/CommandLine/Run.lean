import CallGraph.CommandLine.Arguments
import CallGraph.Graph.Query
import CallGraph.Project.Artifacts

/-!
# Running commands

A command works on a tree and ends with an exit code: nought if all is well, one if the answer is
no, two if the work cannot be done.  Its answer goes to the output.  The journal, from the level
that was asked for, and what is to be said at the end go to the errors.
-/

namespace CallGraph.CommandLine

/-- Where a command runs. -/
structure Surroundings where
  /-- The current directory. -/
  here : Path
  /-- The home directory. -/
  home : Path
  /-- The home directories of those who are known by name. -/
  homes : List (String × Path) := []
  /-- A directory that is not there, for fresh artifacts. -/
  scratch : Path

/-- How a command ends. -/
structure Outcome where
  /-- The exit code. -/
  exit : Nat
  /-- The lines of the output. -/
  output : List String := []
  /-- What is to be said at the end. -/
  remarks : List String := []
  deriving DecidableEq, Repr

/-- All is well. -/
def Outcome.fine : Outcome := { exit := 0 }

/-- The answer is no, for the given reasons. -/
def Outcome.objections (findings : List Finding) : Outcome :=
  { exit := 1, remarks := findings.map Finding.report }

/-- The home directory of someone; that of nobody is one's own. -/
def Surroundings.homeOf? (surroundings : Surroundings) (owner : String) : Option Path :=
  if owner.isEmpty then some surroundings.home else surroundings.homes.lookup owner

/-- A path with a tilde at its beginning taken as the home directory of the one it names. -/
def Surroundings.expand (surroundings : Surroundings) (path : Path) : Except Failure Path :=
  match path.isAbsolute, path.names with
  | false, name :: names =>
      match name.toList with
      | '~' :: owner =>
          match surroundings.homeOf? (String.ofList owner) with
          | some home => .ok { home with names := home.names ++ names }
          | none => .error .unknownHome
      | _ => .ok path
  | _, _ => .ok path

/-- The text that an argument gives. -/
def Value.demand : Value → Work String
  | .text given => pure given
  | .nothing => throw .argumentMissing

/-- The path that an argument names, without links and double dots. -/
def Surroundings.locate (surroundings : Surroundings) (argument : Value) : Work Path := do
  let path ← Work.demand id (surroundings.expand (Path.parse (← argument.demand)))
  Work.resolve (surroundings.here.join path)

/-! ## Commands on a project -/

/-- Check a table, and report it. -/
def checkTable (table : Table) : Work (List Finding) := do
  Work.report [table.soundnessEvent]
  return table.findings "table"

/-- Build a project and write its artifacts, if its table is sound. -/
def runBuild (surroundings : Surroundings) (root : Path) (directory : Option Value) :
    Work Outcome := do
  let settings ← Settings.load root
  let directory ← match directory with
    | some directory => surroundings.locate directory
    | none => do resolveOutputDir root (← Settings.load root).outputDir
  let table ← buildProject root settings settings.outputDir
  let findings ← checkTable table
  if findings.isEmpty then
    writeArtifacts table directory
    return .fine
  else return .objections findings

/-- The directory of artifacts that a command names, or that of the settings. -/
def artifactsDirectory (surroundings : Surroundings) (root : Path) (directory : Option Value) :
    Work Path := do
  match directory with
  | some directory => surroundings.locate directory
  | none => do
      let settings ← Settings.load root
      Work.resolve (root.join (Path.parse settings.outputDir))

/-- Check artifacts. -/
def runValidate (surroundings : Surroundings) (root : Path) (directory : Option Value) :
    Work Outcome := do
  let directory ← artifactsDirectory surroundings root directory
  let report ← validateArtifacts directory false
  return if report.ok then .fine else .objections report.errors

/-- The remarks on a comparison that has found differences. -/
def differences (comparison : Comparison) : List String :=
  comparison.missing.map (fun file => s!"missing: {file}") ++
    comparison.extra.map (fun file => s!"extra: {file}") ++
    comparison.mismatches.map fun file => s!"mismatches: {file}"

/-- Compare artifacts with fresh ones. -/
def runVerify (surroundings : Surroundings) (root : Path) (directory : Option Value) :
    Work Outcome := do
  let directory ← artifactsDirectory surroundings root directory
  let unable (failure : Failure) : Outcome :=
    { exit := 2
      remarks := [s!"artifacts-dir: {directory.render}", s!"error: {failure.message}"] }
  fun workspace =>
    match verify root directory surroundings.scratch none .standard workspace with
    | .ok comparison after =>
        .ok (if comparison.ok then .fine else { exit := 1, remarks := differences comparison })
          after
    | .error (.noArtifacts path) after => .ok (unable (.noArtifacts path)) after
    | .error (.artifactsNotDirectory path) after => .ok (unable (.artifactsNotDirectory path)) after
    | .error failure after => .error failure after

/-! ## Questions -/

/-- The table that a question is put to, or what is wrong with it. -/
def questionTable (surroundings : Surroundings) (question : Question) :
    Work (Except (List Finding) Table) := do
  let reading ← match question.table with
    | some path => do loadTable (← surroundings.locate path)
    | none => do
        let root ← surroundings.locate question.root
        let settings ← Settings.load root
        pure ⟨some (← buildProject root settings settings.outputDir), []⟩
  match reading.table with
  | none => return .error reading.findings
  | some table =>
      let findings ← checkTable table
      return if findings.isEmpty then .ok table else .error findings

/-- What is said when nothing is found. -/
def notFound (start : String) (finish : Option String) : String :=
  match finish with
  | some finish => s!"No path from {Text.quote start} to {Text.quote finish}"
  | none => s!"No cycle reachable from {Text.quote start}"

/-- The direction of a question. -/
def Question.direction (question : Question) : Direction :=
  if question.reversed then .backward else .forward

/-- The texts before the first value that gives nothing, and whether there is none of those. -/
def leadingTexts : List Value → List String × Bool
  | [] => ([], true)
  | .nothing :: _ => ([], false)
  | .text text :: values =>
      let (texts, complete) := leadingTexts values
      (text :: texts, complete)

/-- The end of a path that a question asks for.  The start must be a pattern before it counts that
no end is given. -/
def Question.finishText (question : Question) (start : String) : Work (Option String) := do
  match question.finish with
  | none => return none
  | some (.text finish) => return some finish
  | some .nothing => do
      let _ ← Work.demand .pattern (Pattern.compile start)
      throw .argumentMissing

/-- Search a table for the answer to a question. -/
def search (table : Table) (question : Question) (start : String) (finish : Option String)
    (ignore : List String) (complete : Bool) : Work (List Key) := do
  Work.report [Query.openingEvent question.direction start finish]
  let query ← Work.demand .pattern (Query.ofPatterns question.direction start finish ignore)
  if !complete then throw .argumentMissing
  let answer := table.search query
  Work.report answer.journal
  Work.demand .search answer.keys

/-- Answer a question. -/
def runQuestion (surroundings : Surroundings) (question : Question) : Work Outcome := do
  match ← questionTable surroundings question with
  | .error findings => return .objections findings
  | .ok table =>
      let root ← surroundings.locate question.root
      let settings ← Settings.load root
      let start ← question.start.demand
      let finish ← question.finishText start
      let (ignore, complete) := leadingTexts question.ignore
      let keys ← search table question start finish (settings.ignored ++ ignore) complete
      if keys.isEmpty then return { exit := 1, remarks := [notFound start finish] }
      return { exit := 0, output := keys }

/-- Run a command. -/
def run (surroundings : Surroundings) : Command → Work Outcome
  | .build root directory => do runBuild surroundings (← surroundings.locate root) directory
  | .validate root directory => do runValidate surroundings (← surroundings.locate root) directory
  | .verify root directory => do runVerify surroundings (← surroundings.locate root) directory
  | .ask question => runQuestion surroundings question

/-! ## The whole program -/

/-- Whether a failure is one of what the user has given, to be told in a line. -/
def isTold : Failure → Bool
  | .settings error => error.isTold
  | .dump _ | .search (.unresolved ..) => true
  | .pattern error => error.fault = .malformed
  | _ => false

/-- How the program ends. -/
inductive Ending where
  /-- The arguments give no command. -/
  | refused (refusal : Refusal)
  /-- The work has failed for a reason that is not told in a line. -/
  | failed (failure : Failure)
  /-- The exit code, the output and the errors. -/
  | finished (exit : Nat) (output errors : String)

/-- Lines as a text. -/
def lines (texts : List String) : String := String.join (texts.map (· ++ "\n"))

/-- The part of the journal that is shown from a level on. -/
def shown (level : Level) (journal : List Event) : List String :=
  (journal.filter fun event => level.rank ≤ event.level.rank).map Event.line

/-- Run the program on a tree. -/
def execute (surroundings : Surroundings) (arguments : List String) (tree : Tree) :
    Ending × Tree :=
  match readArguments arguments with
  | .error refusal => (.refused refusal, tree)
  | .ok invocation =>
      let level := Level.ofVerbosity invocation.verbosity
      let finish (outcome : Outcome) (workspace : Workspace) : Ending × Tree :=
        (.finished outcome.exit (lines outcome.output)
          (lines (shown level workspace.journal ++ outcome.remarks)), workspace.tree)
      match run surroundings invocation.command { tree, journal := [.journalOpened level] } with
      | .ok outcome workspace => finish outcome workspace
      | .error failure workspace =>
          if isTold failure then
            finish { exit := 2, remarks := [s!"error: {failure.message}"] } workspace
          else (.failed failure, workspace.tree)

end CallGraph.CommandLine
