import CallGraph.CommandLine.Snapshot

/-!
# The program

Builds call graphs from compiler dumps, checks and verifies their artifacts, and answers questions
about paths and cycles.
-/

namespace CallGraph.CommandLine

/-- How the program is used. -/
def usage : String :=
  lines
    ["usage: cgraph [-h] [-v] build [--out-dir DIR] [root]",
     "       cgraph [-h] [-v] validate [--artifacts-dir DIR] [root]",
     "       cgraph [-h] [-v] verify [--artifacts-dir DIR] [root]",
     "       cgraph [-h] [-v] path START END [options]",
     "       cgraph [-h] [-v] cycle START [options]",
     "options: --root DIR, --table FILE, --reverse, --ignore KEY_OR_PATTERN"]

/-- The home directories in a list of accounts, one on a line with colons between its fields. -/
def homesOf (accounts : String) : List (String × Path) :=
  (accounts.splitOn "\n").filterMap fun line =>
    match line.splitOn ":" with
    | name :: _ :: _ :: _ :: _ :: home :: _ => some (name, Path.parse home)
    | _ => none

/-- The surroundings of the running program. -/
def currentSurroundings : IO Surroundings := do
  let here ← IO.currentDir
  let home := (← IO.getEnv "HOME").getD "/"
  let accounts ← try IO.FS.readFile "/etc/passwd" catch _ => pure ""
  return {
    here := Path.parse here.toString
    home := Path.parse home
    homes := homesOf accounts
    scratch := Path.parse "/fresh-artifacts" }

/-- The tree that a command works on. -/
def currentTree (surroundings : Surroundings) (arguments : List String) : IO Tree := do
  let paths := match readArguments arguments with
    | .ok invocation => "." :: invocation.command.paths
    | .error _ => []
  let mut tree : Tree := {}
  for argument in paths do
    match surroundings.expand (Path.parse argument) with
    | .ok path => tree ← takeIn tree (surroundings.here.join path).render
    | .error _ => pure ()
  return tree

/-- Tell how the program has ended, and give its exit code. -/
def tell : Ending → IO UInt32
  | .refused .help => do IO.print usage; return 0
  | .refused .usage => do IO.eprint usage; return 2
  | .failed failure => do IO.eprintln failure.message; return 1
  | .finished exit output errors => do
      IO.print output
      IO.eprint errors
      return exit.toUInt32

end CallGraph.CommandLine

open CallGraph CommandLine in
/-- Run the program with its arguments. -/
def main (arguments : List String) : IO UInt32 := do
  let surroundings ← currentSurroundings
  let before ← currentTree surroundings arguments
  let (ending, after) := execute surroundings arguments before
  putOut before after
  tell ending
