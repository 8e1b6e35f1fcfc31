import CallGraph.Text.Blank
import CallGraph.Text.Digit

/-!
# The arguments of the command line

A command is given by its name, words and options in any order.  An option may be shortened as long
as no other one begins alike, and its value may follow an equals sign.  Options of one letter may
stand together.  After two hyphens alone, everything is a word.  A word may begin with a hyphen if
it is a number or holds a space.

Two hyphens alone do not count as a value: an option or a word that is given no more than them is
given nothing.

Asking for help ends the reading where it is met.  Whatever is left over or missing is refused at
the end.
-/

namespace CallGraph.CommandLine

/-- Why arguments give no command. -/
inductive Refusal where
  /-- Help was asked for. -/
  | help
  /-- The arguments do not fit. -/
  | usage
  deriving DecidableEq, Repr

/-- An option. -/
structure Flag where
  /-- How it is written. -/
  name : String
  /-- Whether a value follows it. -/
  valued : Bool := false
  deriving DecidableEq, Repr

/-- What a command takes. -/
structure Form where
  /-- Its options. -/
  flags : List Flag
  /-- How many words it needs. -/
  least : Nat := 0
  /-- How many words it takes. -/
  most : Nat

/-- The options that ask for help. -/
def helpFlags : List Flag := [{ name := "-h" }, { name := "--help" }]

/-- What is given for an option or a word. -/
inductive Value where
  /-- A text. -/
  | text (text : String)
  /-- Nothing but two hyphens, which do not count. -/
  | nothing
  deriving DecidableEq, Repr

/-- What a text gives. -/
def Value.of (text : String) : Value :=
  if text == "--" then .nothing else .text text

/-- An argument, by what it looks like. -/
inductive Token where
  /-- A word. -/
  | word (text : String)
  /-- An option, with what is attached to it. -/
  | option (flag : Flag) (attached : Option String)
  /-- Something that looks like an option and is none. -/
  | unknown
  /-- Two hyphens alone. -/
  | divider
  deriving DecidableEq, Repr

namespace Token

/-- A text cut at its first equals sign, if it has one. -/
def cutAtEquals? (text : String) : Option (String × String) :=
  match text.toList.dropWhile (· != '=') with
  | [] => none
  | _ :: value => some (String.ofList (text.toList.takeWhile (· != '=')), String.ofList value)

/-- Characters without a line feed at their end. -/
def dropLineFeed (letters : List Char) : List Char :=
  if letters.getLast? == some '\n' then letters.dropLast else letters

/-- A text that looks like a negative number; a line feed may follow it. -/
def isNegativeNumber (text : String) : Bool :=
  match dropLineFeed text.toList with
  | '-' :: letters =>
      let fraction := letters.dropWhile Text.isDigit
      match fraction with
      | [] => !letters.isEmpty
      | '.' :: digits => !digits.isEmpty && digits.all Text.isDigit
      | _ => false
  | _ => false

/-- Whether a text begins with two hyphens. -/
def isLong (text : String) : Bool := ['-', '-'].isPrefixOf text.toList

/-- Whether a text begins with another. -/
def startsWith (text start : String) : Bool := start.toList.isPrefixOf text.toList

/-- The options that a text may be short for.  A long option may be shortened; to an option of one
letter more letters may be attached. -/
def candidates (flags : List Flag) (text : String) : List Token :=
  if isLong text then
    let (start, value) :=
      match cutAtEquals? text with
      | some (start, value) => (start, some value)
      | none => (text, none)
    (flags.filter fun flag => startsWith flag.name start).map fun flag => option flag value
  else
    flags.filterMap fun flag =>
      if flag.name.toList == text.toList.take 2 then
        some (option flag (some (String.ofList (text.toList.drop 2))))
      else if startsWith flag.name text then some (option flag none)
      else none

/-- An argument that is no option in full. -/
def guess (flags : List Flag) (text : String) : Except Refusal Token :=
  match candidates flags text with
  | [token] => .ok token
  | _ :: _ :: _ => .error .usage
  | [] =>
      .ok (if isNegativeNumber text || text.toList.contains ' ' then .word text else .unknown)

/-- An option with the given name. -/
def find? (flags : List Flag) (name : String) : Option Flag :=
  flags.find? fun flag => flag.name == name

/-- Tell what an argument looks like. -/
def read (flags : List Flag) (text : String) : Except Refusal Token :=
  if !startsWith text "-" || text == "-" then .ok (.word text)
  else
    match find? flags text with
    | some flag => .ok (.option flag none)
    | none =>
        match cutAtEquals? text with
        | none => guess flags text
        | some (name, value) =>
            match find? flags name with
            | some flag => .ok (.option flag (some value))
            | none => guess flags text

/-- Tell what each argument looks like. -/
def readAll (flags : List Flag) : List String → Except Refusal (List Token)
  | [] => .ok []
  | text :: texts =>
      if text == "--" then .ok (.divider :: texts.map .word)
      else do return (← read flags text) :: (← readAll flags texts)

end Token

/-- The options of one letter each that an option stands for with letters attached to it. -/
def expand (flags : List Flag) (flag : Flag) : List Char → Except Refusal (List Flag)
  | [] => .ok [flag]
  | letter :: letters =>
      match Token.find? flags (String.ofList ['-', letter]) with
      | some next => do return flag :: (← expand flags next letters)
      | none => .error .usage

/-- What was read of the arguments of a command. -/
structure Reading where
  /-- The words. -/
  words : List Value := []
  /-- The options with their values, which are empty where an option takes none. -/
  values : List (String × Value) := []
  /-- Whether something was left over. -/
  leftOver : Bool := false
  /-- Whether the last argument was taken as a word. -/
  afterWord : Bool := false
  /-- Whether the last argument was two hyphens that do not belong to the word before. -/
  afterDivider : Bool := false
  deriving DecidableEq, Repr

namespace Reading

/-- Take a word, or leave it over.  A word of two hyphens counts right after the two hyphens that
belong to it. -/
def takeWord (form : Form) (reading : Reading) (text : String) : Reading :=
  if reading.words.length < form.most then
    let value := if reading.afterDivider then .text text else Value.of text
    { reading with
      words := reading.words ++ [value]
      afterWord := true
      afterDivider := false }
  else { reading with leftOver := true, afterWord := false, afterDivider := false }

/-- Take an option with its value. -/
def takeValue (reading : Reading) (name : String) (value : Value) : Reading :=
  { reading with values := reading.values ++ [(name, value)], afterWord := false }

/-- Take options without value; one that asks for help ends the reading. -/
def takeFlags (reading : Reading) : List Flag → Except Refusal Reading
  | [] => .ok reading
  | flag :: flags =>
      if flag ∈ helpFlags then .error .help
      else (reading.takeValue flag.name (.text "")).takeFlags flags

/-- Take two hyphens alone.  They belong to the word before, or else to a word that may still
come. -/
def takeDivider (form : Form) (reading : Reading) (last : Bool) : Reading :=
  if reading.afterWord then reading
  else if last && form.most ≤ reading.words.length then { reading with leftOver := true }
  else { reading with afterDivider := true }

/-- Take an option with what is attached to it, and what follows. -/
def takeOption (form : Form) (reading : Reading) (flag : Flag) (attached : Option String)
    (tokens : List Token) : Except Refusal (Reading × List Token) :=
  match attached with
  | some value =>
      if flag.valued then .ok (reading.takeValue flag.name (.of value), tokens)
      else if Token.isLong flag.name || value.isEmpty then .error .usage
      else do
        let flags ← expand form.flags flag value.toList
        return (← reading.takeFlags flags, tokens)
  | none =>
      if flag.valued then
        match tokens with
        | .word value :: rest => .ok (reading.takeValue flag.name (.of value), rest)
        | _ => .error .usage
      else do return (← reading.takeFlags [flag], tokens)

/-- Take arguments one after another.  `fuel` bounds their number. -/
def takeAll (form : Form) : Nat → Reading → List Token → Except Refusal Reading
  | 0, reading, _ => .ok reading
  | _, reading, [] => .ok reading
  | fuel + 1, reading, .word text :: tokens => takeAll form fuel (reading.takeWord form text) tokens
  | fuel + 1, reading, .unknown :: tokens =>
      takeAll form fuel { reading with leftOver := true, afterWord := false } tokens
  | fuel + 1, reading, .divider :: tokens =>
      takeAll form fuel (reading.takeDivider form tokens.isEmpty) tokens
  | fuel + 1, reading, .option flag attached :: tokens => do
      let (reading, tokens) ← reading.takeOption form flag attached tokens
      takeAll form fuel reading tokens

/-- The last value of an option. -/
def value? (reading : Reading) (name : String) : Option Value :=
  ((reading.values.filter fun value => value.1 == name).getLast?).map Prod.snd

/-- All values of an option. -/
def valuesOf (reading : Reading) (name : String) : List Value :=
  (reading.values.filter fun value => value.1 == name).map Prod.snd

end Reading

/-- Read the arguments of a command. -/
def Form.read (form : Form) (arguments : List String) : Except Refusal Reading := do
  let tokens ← Token.readAll form.flags arguments
  let reading ← Reading.takeAll form tokens.length {} tokens
  if reading.leftOver || reading.words.length < form.least then throw .usage
  return reading

/-! ## Commands -/

/-- A question to a table. -/
structure Question where
  /-- The pattern for the start. -/
  start : Value
  /-- The pattern for the end of a path; a cycle is asked for if there is none. -/
  finish : Option Value
  /-- The root of the project. -/
  root : Value
  /-- The persisted table to ask instead of the project. -/
  table : Option Value
  /-- Whether edges are followed backwards. -/
  reversed : Bool
  /-- What is ignored besides what the settings say. -/
  ignore : List Value
  deriving DecidableEq, Repr

/-- What is to be done. -/
inductive Command where
  /-- Build a project and write its artifacts. -/
  | build (root : Value) (directory : Option Value)
  /-- Check artifacts. -/
  | validate (root : Value) (directory : Option Value)
  /-- Compare artifacts with fresh ones. -/
  | verify (root : Value) (directory : Option Value)
  /-- Answer a question. -/
  | ask (question : Question)
  deriving DecidableEq, Repr

/-- The arguments of a command that works on a project and has an option for a directory. -/
def projectForm (option : String) : Form :=
  { flags := helpFlags ++ [⟨option, true⟩], most := 1 }

/-- The arguments of a question with so many patterns. -/
def questionForm (patterns : Nat) : Form :=
  { flags := helpFlags ++
      [⟨"--root", true⟩, ⟨"--table", true⟩, ⟨"--reverse", false⟩, ⟨"--ignore", true⟩]
    least := patterns
    most := patterns }

/-- Read the arguments of a command that works on a project. -/
def readProject (option : String) (command : Value → Option Value → Command)
    (arguments : List String) : Except Refusal Command := do
  let reading ← (projectForm option).read arguments
  return command (reading.words.head?.getD (.text ".")) (reading.value? option)

/-- Read the arguments of a question with so many patterns. -/
def readQuestion (patterns : Nat) (arguments : List String) : Except Refusal Command := do
  let reading ← (questionForm patterns).read arguments
  return .ask
    { start := reading.words.head?.getD .nothing
      finish := reading.words.tail.head?
      root := (reading.value? "--root").getD (.text ".")
      table := reading.value? "--table"
      reversed := (reading.value? "--reverse").isSome
      ignore := reading.valuesOf "--ignore" }

/-- Read a command by its name. -/
def readCommand (name : String) (arguments : List String) : Except Refusal Command :=
  match name with
  | "build" => readProject "--out-dir" .build arguments
  | "validate" => readProject "--artifacts-dir" .validate arguments
  | "verify" => readProject "--artifacts-dir" .verify arguments
  | "path" => readQuestion 2 arguments
  | "cycle" => readQuestion 1 arguments
  | _ => .error .usage

/-- A command and how often more detail was asked for. -/
structure Invocation where
  /-- How often more detail was asked for. -/
  verbosity : Nat
  /-- The command. -/
  command : Command
  deriving DecidableEq, Repr

/-- The options before the command. -/
def leadingForm : Form :=
  { flags := helpFlags ++ [{ name := "-v" }, { name := "--verbose" }], most := 0 }

/-- Read what comes before the name of the command, and the command.  Every argument is given with
what it looks like before the command is known. -/
def readLeading (reading : Reading) : List (String × Token) → Except Refusal Invocation
  | [] | (_, .divider) :: _ => .error .usage
  | (_, .word name) :: arguments => do
      let command ← readCommand name (arguments.map Prod.fst)
      if reading.leftOver then throw .usage
      return { verbosity := reading.values.length, command }
  | (_, token) :: arguments => do
      readLeading (← Reading.takeAll leadingForm 1 reading [token]) arguments

/-- Read the arguments of the program. -/
def readArguments (arguments : List String) : Except Refusal Invocation := do
  let tokens ← Token.readAll leadingForm.flags arguments
  readLeading {} (arguments.zip tokens)

end CallGraph.CommandLine
