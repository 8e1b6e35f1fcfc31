import CallGraph.Pattern.Escape
import CallGraph.Text.Identifier
import CallGraph.Text.Numeral

/-!
# Reading a pattern

Flags may be set for the whole pattern at its very start, or for a group.  Refused are unbalanced
brackets, repetitions of nothing, of an anchor or of a repetition, unknown escapes and extensions,
references to groups that are open or do not exist, and lookbehind without a fixed width.

Alternatives share what all of them begin with, and alternatives that are no more than one
character each are one set.
-/

namespace CallGraph.Pattern

open Text Parse

/-- What a token stands for in a set. -/
def member (flags : Flags) : Token → Parse Member
  | .plain letter => return .literal letter.toNat
  | .escaped letter => setEscape flags letter
  | .dangling => refuse

/-- The range between two members of a set. -/
def rangeBetween : Member → Member → Parse Member
  | .literal first, .literal last =>
      if first ≤ last then return .range first last else refuse
  | _, _ => refuse

/-- The members of a set up to its closing bracket, after those read before, last one first. -/
def setMembers (flags : Flags) : Nat → List Member → Parse (List Member)
  | 0, _ => refuse
  | fuel + 1, known => do
      match ← next with
      | none => refuse
      | some token =>
          if token = .plain ']' && !known.isEmpty then return known.reverse
          else
            let first ← member flags token
            if ← accept '-' then
              match ← next with
              | none => refuse
              | some (.plain ']') => return (.literal '-'.toNat :: first :: known).reverse
              | some token =>
                  let range ← rangeBetween first (← member flags token)
                  setMembers flags fuel (range :: known)
            else setMembers flags fuel (first :: known)

/-- A set, after its opening bracket.  A set of one character is that character. -/
def characterSet (flags : Flags) : Parse (Node Single) := do
  let negated ← accept '^'
  let members ← setMembers flags ((← get).size + 1) []
  match members.eraseDups with
  | [.literal code] => return .single (.literal negated code flags.folding)
  | members => return .single (.set negated members flags.folding)

/-- The greatest number of digits of a count. -/
def digitLimit : Nat := 4300

/-- The number of a count, if it is given. -/
def countOf (digits : List Char) : Parse (Option Nat) :=
  if digits.isEmpty then return none
  else if digits.length > digitLimit then throw .numberTooLong
  else if numeral 10 digits ≥ Width.limit then throw .numberTooLarge
  else return some (numeral 10 digits)

/-- The bounds in braces, after the opening one; nothing is taken if they are no bounds. -/
def bracedBounds : Parse (Option (Nat × Option Nat)) := do
  let before ← get
  if (← peek) = some (.plain '\x7d') then return none
  let low ← takeWhile isDecimal before.size
  let high ← if ← accept ',' then takeWhile isDecimal before.size else pure low
  if ← accept '\x7d' then
    let least ← countOf low
    let most ← countOf high
    if most.any (· < least.getD 0) then refuse
    else return some (least.getD 0, most)
  else
    set before
    return none

/-- The bounds of a repetition, after the character that begins it. -/
def bounds (letter : Char) : Parse (Option (Nat × Option Nat)) :=
  match letter with
  | '?' => return some (0, some 1)
  | '*' => return some (0, none)
  | '+' => return some (1, none)
  | _ => bracedBounds

/-- How much a repetition takes, by the character after it. -/
def appetite : Parse Appetite := do
  if ← accept '?' then return .lazy
  if ← accept '+' then return .possessive
  return .greedy

/-- A part of a sequence as long as a repetition may follow. -/
inductive Piece where
  /-- A node. -/
  | node (node : Node Single)
  /-- A group without a number and without flags, which becomes part of the sequence. -/
  | loose (nodes : List (Node Single))

namespace Piece

/-- The nodes of a piece. -/
def nodes : Piece → List (Node Single)
  | .node item => [item]
  | .loose items => items

/-- Whether a piece may be repeated. -/
def isRepeatable : Piece → Bool
  | .node item => item.isRepeatable
  | .loose _ => true

end Piece

/-- Repeat the last of the pieces, which are given last first. -/
def repeatLast (pieces : List Piece) (least : Nat) (most : Option Nat) : Parse (List Piece) := do
  match pieces with
  | [] => refuse
  | last :: before =>
      if !last.isRepeatable then refuse
      let appetite ← appetite
      modify fun reading => { reading with repeats := true }
      return .node (.repetition least most appetite (.ofList last.nodes)) :: before

/-- Whether two nodes without parts are the same. -/
def Node.isSame : Node Single → Node Single → Bool
  | .single left, .single right => left == right
  | .anchor left, .anchor right => left == right
  | .reference left _, .reference right _ => left == right
  | _, _ => false

/-- The nodes that a first alternative and all others begin with, and what is left of them. -/
def splitCommon (others : List (List (Node Single))) :
    List (Node Single) → List (Node Single) × List (List (Node Single))
  | [] => ([], [] :: others)
  | lead :: first =>
      if others.all fun nodes => nodes.head?.any lead.isSame then
        let (common, rest) := splitCommon (others.map List.tail) first
        (lead :: common, rest)
      else ([], (lead :: first) :: others)

/-- The members of the set that an alternative of one character stands for. -/
def membersOf? : List (Node Single) → Option (List Member)
  | [.single (.literal false code _)] => some [.literal code]
  | [.single (.set false members _)] => some members
  | _ => none

/-- Alternatives as one sequence of nodes. -/
def joinAlternatives (folding : Folding) :
    List (List (Node Single)) → List (Node Single)
  | [] => []
  | [nodes] => nodes
  | first :: others =>
      let (common, rest) := splitCommon others first
      match rest.mapM membersOf? with
      | some members => common ++ [.single (.set false members.flatten.eraseDups folding)]
      | none => common ++ [.oneOf (rest.map .ofList)]

/-- Flags that are switched on, up to the character that ends them. -/
def flagsOn : Nat → Char → List FlagLetter → Parse (List FlagLetter × Char)
  | 0, _, _ => refuse
  | fuel + 1, letter, flags => do
      match FlagLetter.ofChar? letter with
      | none => refuse
      | some flag =>
          if flag.choosesScript &&
              flags.any (fun other => other.choosesScript && other != flag) then
            refuse
          else
            match ← next with
            | some (.plain letter) =>
                if letter == ')' || letter == '-' || letter == ':' then
                  return (flag :: flags, letter)
                else flagsOn fuel letter (flag :: flags)
            | _ => refuse

/-- Flags that are switched off, up to the colon that ends them. -/
def flagsOff : Nat → List FlagLetter → Parse (List FlagLetter)
  | 0, _ => refuse
  | fuel + 1, flags => do
      match ← next with
      | some (.plain ':') => if flags.isEmpty then refuse else return flags
      | some (.plain letter) =>
          match FlagLetter.ofChar? letter with
          | some flag => if flag.choosesScript then refuse else flagsOff fuel (flag :: flags)
          | none => refuse
      | _ => refuse

/-- What a list of flags applies to. -/
inductive FlagScope where
  /-- The whole pattern. -/
  | pattern (flags : Flags)
  /-- A group. -/
  | group (flags : Flags)

/-- The flags after an opening parenthesis and a question mark, of which `letter` is the first. -/
def flagScope (flags : Flags) (letter : Char) : Parse FlagScope := do
  let fuel := (← get).size + 1
  let (on, closing) ← if letter == '-' then pure ([], '-') else flagsOn fuel letter []
  let switched := switchAll on true flags
  if closing == ')' then
    modify fun reading =>
      { reading with scripts := reading.scripts ++ on.filter FlagLetter.choosesScript }
    return .pattern switched
  if on.contains .rigid then refuse
  if closing == ':' then return .group switched
  let off ← flagsOff fuel []
  if off.contains .rigid || off.any on.contains then refuse
  return .group (switchAll off false switched)

/-- What an opening parenthesis begins. -/
inductive Opening where
  /-- A group with a number. -/
  | group (number : Nat)
  /-- A group without a number and without flags. -/
  | loose
  /-- A group with flags. -/
  | flagged (flags : Flags)
  /-- A group that gives nothing back. -/
  | atomic
  /-- A condition on what follows or precedes. -/
  | look (behind negated : Bool)
  /-- One of two patterns, depending on a group. -/
  | conditional (number : Nat)
  /-- A finished node. -/
  | node (node : Node Single)
  /-- Flags for the whole pattern. -/
  | flags (flags : Flags)
  /-- A comment. -/
  | comment

/-- Number a new group. -/
def openGroup (name : Option String) : Parse Nat := do
  let reading ← get
  let number := reading.nextGroup
  match name with
  | some name =>
      if (reading.names.lookup name).isSome then refuse
      set { reading with nextGroup := number + 1, names := (name, number) :: reading.names }
  | none => set { reading with nextGroup := number + 1 }
  return number

/-- The number of a named group. -/
def namedGroup (name : String) : Parse Nat := do
  if !isIdentifier name then refuse
  match (← get).names.lookup name with
  | some number => return number
  | none => refuse

/-- The number that no group may reach. -/
def groupLimit : Nat := 1073741823

/-- The group that a condition asks for, by name or by number.  A group that is asked for by
number need only exist in the end. -/
def conditionGroup : Parse Nat := do
  let name ← upTo ')'
  let number ←
    if isIdentifier name then namedGroup name
    else
      match integer? name with
      | some (.ofNat number) =>
          if number = 0 || number ≥ groupLimit then refuse
          modify fun reading => { reading with conditions := number :: reading.conditions }
          pure number
      | _ => refuse
  checkCondition number
  return number

/-- What follows an opening parenthesis, a question mark and the letter of named groups. -/
def namedOpening (flags : Flags) : Parse Opening := do
  if ← accept '<' then
    let name ← upTo '>'
    if isIdentifier name then return .group (← openGroup (some name)) else refuse
  else if ← accept '=' then
    let number ← namedGroup (← upTo ')')
    checkReference number
    return .node (.reference number flags.folding)
  else refuse

/-- What an opening parenthesis begins. -/
def opening (flags : Flags) : Parse Opening := do
  if !(← accept '?') then return .group (← openGroup none)
  match ← next with
  | some (.plain 'P') => namedOpening flags
  | some (.plain ':') => return .loose
  | some (.plain '#') => if (← skipPast ')').isSome then return .comment else refuse
  | some (.plain '=') => return .look false false
  | some (.plain '!') => return .look false true
  | some (.plain '<') =>
      match ← next with
      | some (.plain '=') => return .look true false
      | some (.plain '!') => return .look true true
      | _ => refuse
  | some (.plain '(') => return .conditional (← conditionGroup)
  | some (.plain '>') => return .atomic
  | some (.plain letter) =>
      match ← flagScope flags letter with
      | .pattern flags => return .flags flags
      | .group flags => return .flagged flags
  | _ => refuse

/-- A blank that does not count where blanks do not count. -/
def isVerboseBlank (c : Char) : Bool :=
  c == ' ' || (9 ≤ c.toNat && c.toNat ≤ 13)

/-- Close a group: its width is known from now on. -/
def closeGroup (number : Nat) (body : Node Single) : Parse Unit :=
  modify fun reading =>
    { reading with widths := (number, body.width reading.widths) :: reading.widths }

/-- A condition on what precedes.  It looks back by the width of its body; that there is only one
is checked when the pattern is read to its end. -/
def lookbehind (negated : Bool) (body : Node Single) : Parse (Node Single) := do
  match (body.width (← get).widths).length? with
  | some width => return .look negated width body
  | none =>
      modify fun reading => { reading with uneven := true }
      return .look negated 0 body

/-- How deep a pattern may nest, where a group counts twice and a condition on a group once. -/
def nestingLimit : Nat := 982

/-- What is left of a depth after a part that counts as `cost`. -/
def deeper (depth cost : Nat) : Parse Nat :=
  if cost ≤ depth then return depth - cost else throw .tooDeep

mutual

/-- Alternatives after those read before, which are given last first, and the flags that hold
after them.  `first` tells whether flags may still be set for the whole pattern. -/
def alternatives (fuel depth : Nat) (flags : Flags) (first : Bool)
    (known : List (List (Node Single))) : Parse (List (Node Single) × Flags) :=
  match fuel with
  | 0 => refuse
  | fuel + 1 => do
      let (nodes, flags) ← items fuel depth flags first []
      if ← accept '|' then alternatives fuel depth flags false (nodes :: known)
      else return (joinAlternatives flags.folding (nodes :: known).reverse, flags)

/-- The items of a sequence after those read before, which are given last first. -/
def items (fuel depth : Nat) (flags : Flags) (first : Bool) (known : List Piece) :
    Parse (List (Node Single) × Flags) :=
  match fuel with
  | 0 => refuse
  | fuel + 1 => do
      match ← peek with
      | none | some (.plain '|') | some (.plain ')') =>
          return (known.reverse.flatMap Piece.nodes, flags)
      | some .dangling => refuse
      | some (.escaped letter) =>
          let _ ← next
          items fuel depth flags first (.node (← escape flags letter) :: known)
      | some (.plain letter) =>
          let _ ← next
          if flags.verbose && isVerboseBlank letter then items fuel depth flags first known
          else if flags.verbose && letter == '#' then
            let _ ← skipPast '\n'
            items fuel depth flags first known
          else
            match letter with
            | '[' => items fuel depth flags first (.node (← characterSet flags) :: known)
            | '.' => items fuel depth flags first (.node (.single (.any flags.dotAll)) :: known)
            | '^' =>
                let place := if flags.multiline then Anchor.lineStart else .textStart
                items fuel depth flags first (.node (.anchor place) :: known)
            | '$' =>
                let place := if flags.multiline then Anchor.lineFinish else .textFinish
                items fuel depth flags first (.node (.anchor place) :: known)
            | '(' => group fuel depth flags first known
            | '?' | '*' | '+' | '\x7b' =>
                match ← bounds letter with
                | some (least, most) =>
                    items fuel depth flags first (← repeatLast known least most)
                | none =>
                    items fuel depth flags first (.node (literal flags letter.toNat) :: known)
            | _ => items fuel depth flags first (.node (literal flags letter.toNat) :: known)

/-- What an opening parenthesis begins, and the items after it. -/
def group (fuel depth : Nat) (flags : Flags) (first : Bool) (known : List Piece) :
    Parse (List (Node Single) × Flags) :=
  match fuel with
  | 0 => refuse
  | fuel + 1 => do
      match ← opening flags with
      | .comment => items fuel depth flags first known
      | .flags switched =>
          if first && known.isEmpty then items fuel depth switched first known else refuse
      | .node node => items fuel depth flags first (.node node :: known)
      | .group number =>
          let (body, _) ← alternatives fuel (← deeper depth 2) flags false []
          expect ')'
          closeGroup number (.ofList body)
          items fuel depth flags first (.node (.group (some number) (.ofList body)) :: known)
      | .loose =>
          let (body, _) ← alternatives fuel (← deeper depth 2) flags false []
          expect ')'
          items fuel depth flags first (.loose body :: known)
      | .flagged inner =>
          let (body, _) ← alternatives fuel (← deeper depth 2) inner false []
          expect ')'
          items fuel depth flags first (.node (.group none (.ofList body)) :: known)
      | .atomic =>
          let (body, _) ← alternatives fuel (← deeper depth 2) flags false []
          expect ')'
          items fuel depth flags first (.node (.atomic (.ofList body)) :: known)
      | .look behind negated =>
          let outer := (← get).behind
          if behind && outer.isNone then
            modify fun reading => { reading with behind := some reading.nextGroup }
          let (body, _) ← alternatives fuel (← deeper depth 2) flags false []
          modify fun reading => { reading with behind := outer }
          expect ')'
          let node ←
            if behind then lookbehind negated (.ofList body)
            else pure (.look negated 0 (.ofList body))
          items fuel depth flags first (.node node :: known)
      | .conditional number =>
          let (present, _) ← items fuel (← deeper depth 1) flags false []
          let absent ←
            if ← accept '|' then
              let (absent, _) ← items fuel (← deeper depth 1) flags false []
              pure absent
            else pure []
          expect ')'
          let node := .conditional number (.ofList present) (.ofList absent)
          items fuel depth flags first (.node node :: known)

end

/-- What is read of a pattern. -/
structure Outline where
  /-- The pattern. -/
  body : Node Single
  /-- The number of groups, counting the whole pattern as one. -/
  groups : Nat
  /-- The flags of the whole pattern. -/
  flags : Flags

/-- Read a whole pattern. -/
def Outline.read (pattern : String) : Except PatternFault Outline := do
  let tokens := Token.ofChars pattern.toList
  let fuel := 4 * tokens.length + 4
  let whole : Parse (List (Node Single) × Flags) := do
    goOn tokens
    alternatives fuel nestingLimit {} true []
  let ((nodes, flags), reading) ← whole.run { tokens, size := tokens.length }
  if reading.scripts.contains .ascii && reading.scripts.contains .unicode then
    throw .scriptsConflict
  if !reading.tokens.isEmpty || reading.conditions.any (· ≥ reading.nextGroup) then
    throw .malformed
  if reading.uneven || (flags.rigid && reading.repeats) then throw .malformed
  return { body := .ofList nodes, groups := reading.nextGroup, flags }

end CallGraph.Pattern
