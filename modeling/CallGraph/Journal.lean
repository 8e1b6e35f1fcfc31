import CallGraph.Graph.Direction
import CallGraph.Text.Quoted

/-!
# The journal

What the program reports of its work, apart from its answers.  Every event has a weight, the part
of the program that reports it, and a text.  How much of the journal is shown is chosen on the
command line.
-/

namespace CallGraph

/-- The weight of an event. -/
inductive Level where
  /-- A detail of the work. -/
  | debug
  /-- A stage of the work. -/
  | info
  /-- Something that deserves attention. -/
  | warning
  deriving DecidableEq, Repr

namespace Level

/-- The word for a level. -/
def label : Level → String
  | debug => "DEBUG"
  | info => "INFO"
  | warning => "WARNING"

/-- The rank of a level; a heavier event has a higher rank. -/
def rank : Level → Nat
  | debug => 0
  | info => 1
  | warning => 2

/-- The lightest level shown when more detail was asked for a number of times. -/
def ofVerbosity (times : Int) : Level :=
  if times ≤ 0 then warning else if times = 1 then info else debug

end Level

/-- Something that the program reports of its work. -/
inductive Event where
  /-- The journal is shown from a level on. -/
  | journalOpened (level : Level)
  /-- The settings were read from a file. -/
  | settingsLoaded (path : String)
  /-- A scan has selected dump files. -/
  | filesMatched (count : Nat) (directory : String)
  /-- The dump files to read are known. -/
  | filesFound (count : Nat) (root : String)
  /-- A dump file is read into the table. -/
  | fileParsed (path : String) (lines : Nat) (origin : Origin)
  /-- A declaration was joined to an earlier one. -/
  | merged (target source : Key)
  /-- A record without edges was dropped. -/
  | spuriousDropped (key : Key)
  /-- A symbol that the compiler made up was dropped. -/
  | artificialDropped (key : Key)
  /-- Resolution begins. -/
  | resolving (count : Nat)
  /-- The tokens of a forward field were replaced by keys. -/
  | fieldResolved (key : Key) (field : EdgeField) (tokens resolved : List String)
  /-- Records were left without edges and removed. -/
  | unlinkedRemoved (count : Nat)
  /-- The table is complete. -/
  | tableBuilt (count : Nat)
  /-- The table was found sound. -/
  | tableSound (count : Nat)
  /-- The table was found unsound. -/
  | tableUnsound (errors count : Nat)
  /-- The artifacts were written. -/
  | artifactsWritten (count : Nat) (directory : String)
  /-- Regenerated files differ from those found. -/
  | artifactsDiffer (files : List String)
  /-- A search for a path begins. -/
  | pathSought (direction : Direction) (start finish : String)
  /-- A search for a cycle begins. -/
  | cycleSought (direction : Direction) (start : String)
  /-- A start symbol is on the ignore list. -/
  | ignoredStart (ignore : List String) (key : Key)
  /-- Nothing is found from a key. -/
  | deadEnd (key : Key)
  deriving DecidableEq, Repr

namespace Event

/-- The weight of an event. -/
def level : Event → Level
  | journalOpened .. | settingsLoaded .. | filesMatched .. | fileParsed .. | merged ..
  | spuriousDropped .. | artificialDropped .. | fieldResolved .. | deadEnd .. => .debug
  | filesFound .. | resolving .. | unlinkedRemoved .. | tableBuilt .. | tableSound ..
  | tableUnsound .. | artifactsWritten .. | pathSought .. | cycleSought .. => .info
  | artifactsDiffer .. | ignoredStart .. => .warning

/-- The part of the program that reports an event, under the name that the journal shows. -/
def source : Event → String
  | journalOpened .. => "logging_setup"
  | settingsLoaded .. => "rules.config"
  | filesMatched .. => "scan.files"
  | filesFound .. | fileParsed .. | tableBuilt .. => "graph.builder"
  | merged .. | spuriousDropped .. => "graph.table"
  | artificialDropped .. => "parse.dump_lines"
  | resolving .. | fieldResolved .. | unlinkedRemoved .. => "parse.resolution"
  | tableSound .. | tableUnsound .. => "contract.validation"
  | artifactsWritten .. => "artifacts.write"
  | artifactsDiffer .. => "verify.verify"
  | pathSought .. | cycleSought .. | ignoredStart .. | deadEnd .. => "graph.algos"

open Text in
/-- The text of an event. -/
def text : Event → String
  | journalOpened level => s!"Logging configured at {level.label}"
  | settingsLoaded path => s!"Loaded config from {path}"
  | filesMatched count directory => s!"Matched {count} dump files under {directory}"
  | filesFound count root => s!"Found {count} dump files under {root}"
  | fileParsed path lines origin => s!"Parsing {path} ({lines} lines) as {origin}"
  | merged target source => s!"Merged {source} into {target}"
  | spuriousDropped key => s!"Removed spurious symbol {key}"
  | artificialDropped key => s!"Dropping artificial symbol {key}"
  | resolving count => s!"Resolving {count} symbols"
  | fieldResolved key field tokens resolved =>
      s!"Resolved {key}.{field.label}: {quoteList tokens} -> {quoteList resolved}"
  | unlinkedRemoved count => s!"Removed {count} symbols left without edges"
  | tableBuilt count => s!"Built call graph with {count} symbols"
  | tableSound count => s!"Validated {count} symbols"
  | tableUnsound errors count =>
      s!"Table validation found {errors} error(s) over {count} symbols"
  | artifactsWritten count directory => s!"Wrote artifacts for {count} symbols to {directory}"
  | artifactsDiffer files => "Regenerated artifacts differ: " ++ ", ".intercalate files
  | pathSought direction start finish =>
      s!"Searching {direction.label} path {quote start} -> {quote finish}"
  | cycleSought direction start => s!"Searching {direction.label} cycle from {quote start}"
  | ignoredStart ignore key =>
      s!"Ignore list {quoteList ignore} matches start symbol {key}; searching from it anyway"
  | deadEnd key => s!"Dead end at {key}"

/-- An event as a line of the journal. -/
def line (event : Event) : String :=
  s!"{event.level.label} {event.source}: {event.text}"

end Event

end CallGraph
