import CallGraph.Proofs.Reading.Annotations
import CallGraph.Proofs.Reading.Blocks

/-!
# Units as the compiler writes them

A block is written as a header, a type, a visibility and its lists of edges, and a unit as the
section of its blocks between other text.  Each line says what it was written for, and the section
is cut out of the text as it was written.
-/

namespace CallGraph.Dump

open Text

/-! ## Lines -/

theorem isBlank_of_isHexDigit {letter : Char} (hex : isHexDigit letter = true) :
    isBlank letter = false := by
  simp only [isHexDigit, Bool.or_eq_true, Bool.and_eq_true, decide_eq_true_eq, Char.le_def,
    UInt32.le_iff_toNat_le] at hex
  simp only [isBlank, Char.toNat, Bool.or_eq_false_iff, Bool.and_eq_false_iff,
    decide_eq_false_iff_not, beq_eq_false_iff_ne, ne_eq]
  have bounds : (48 ≤ letter.val.toNat ∧ letter.val.toNat ≤ 57 ∨
      97 ≤ letter.val.toNat ∧ letter.val.toNat ≤ 102) ∨
        65 ≤ letter.val.toNat ∧ letter.val.toNat ≤ 70 := hex
  omega

theorem find?_label (label : Label) (rest : List Char) :
    (Label.all.find? fun other =>
      (other.text.toList ++ [':']).isPrefixOf (label.text.toList ++ ':' :: rest)) = some label := by
  rcases label with _ | _ | (_ | _ | _ | _) <;> rfl

theorem value?_of_oneLine {letters : List Char}
    (oneLine : ∀ letter ∈ letters, isLineBreak letter = false) :
    value? letters = some (letters.dropWhile isBlank) := by
  have noFeed : ∀ letter ∈ letters.dropWhile isBlank, (letter != '\n') = true := by
    intro letter member
    rw [bne_iff_ne]
    rintro rfl
    exact absurd (oneLine '\n' ((List.dropWhile_suffix _).subset member)) (by decide)
  simp only [value?, List.takeWhile_eq_self_iff.mpr noFeed, List.dropWhile_eq_nil_iff.mpr noFeed]
  rfl

/-- The line of a field says what it was written for. -/
theorem readLine_field (label : Label) {value : String} (oneLine : OneLine value) :
    readLine (trimRight ("  " ++ label.text ++ ":" ++ value)) =
      .ok (.field label (trim value)) := by
  have letters : (trimRight ("  " ++ label.text ++ ":" ++ value)).toList =
      ' ' :: ' ' :: (label.text.toList ++ ':' :: dropTrailing isBlank value.toList) := by
    have whole : ("  " ++ label.text ++ ":" ++ value).toList =
        (' ' :: ' ' :: label.text.toList) ++ ':' :: value.toList := by simp
    rw [trimRight, String.toList_ofList, whole, dropTrailing_append_cons (by decide)]
    rfl
  have trimmed : ∀ letter ∈ dropTrailing isBlank value.toList, isLineBreak letter = false :=
    fun letter member => oneLine letter (mem_of_mem_dropTrailing member)
  have dropped : (label.text.toList ++ ':' :: dropTrailing isBlank value.toList).drop
      (label.text.length + 1) = dropTrailing isBlank value.toList := by
    rw [← String.length_toList, List.drop_append]
    simp
  have found :
      field? (trimRight ("  " ++ label.text ++ ":" ++ value)) = some (label, trim value) := by
    rw [field?, letters]
    simp only [after?]
    simp [find?_label, dropped, value?_of_oneLine trimmed, dropWhile_dropTrailing, trim]
  rw [readLine, letters, found]
  rfl

/-- No address stands before the end of the name. -/
theorem address?_of_name {letter : Char} {letters : List Char} (rest : List Char)
    (clear : Key.separator ∉ letter :: letters) :
    address? (letter :: (letters ++ ')' :: ' ' :: rest)) = none := by
  have mismatch : [')', ' ', '@', '0', 'x'].isPrefixOf
      (letter :: (letters ++ ')' :: ' ' :: rest)) = false := by
    match letters with
    | [] => simp [List.isPrefixOf]
    | [_] => simp [List.isPrefixOf]
    | _ :: third :: _ =>
        have different : third ≠ '@' := by
          rintro rfl
          exact clear (by simp [Key.separator])
        simp [List.isPrefixOf, Ne.symm different]
  simp [address?, after?, mismatch]

theorem address?_written {address : List Char} (addressed : address ≠ [])
    (hex : ∀ letter ∈ address, isHexDigit letter = true) :
    address? (')' :: ' ' :: '@' :: '0' :: 'x' :: address) = some address := by
  have begins : after? [')', ' ', '@', '0', 'x'] (')' :: ' ' :: '@' :: '0' :: 'x' :: address) =
      some address := rfl
  have nonempty : address.isEmpty = false := by simpa using addressed
  rw [address?, begins]
  simp only [Option.bind_eq_bind, Option.bind_some, List.takeWhile_eq_self_iff.mpr hex,
    List.dropWhile_eq_nil_iff.mpr hex, nonempty]
  rfl

/-- The name goes up to the address. -/
theorem nameAndAddress?_written {before name address : List Char}
    (named : before ≠ [] ∨ name ≠ []) (clear : Key.separator ∉ name) (oneLine : '\n' ∉ name)
    (addressed : address ≠ []) (hex : ∀ letter ∈ address, isHexDigit letter = true) :
    nameAndAddress? before (name ++ ')' :: ' ' :: '@' :: '0' :: 'x' :: address) =
      some (before.reverse ++ name, address) := by
  induction name generalizing before with
  | nil =>
      have nonempty : before ≠ [] := named.resolve_right fun absurd_ => absurd_ rfl
      rw [List.nil_append, nameAndAddress?, address?_written addressed hex]
      simp [nonempty]
  | cons letter name induction =>
      have ended := address?_of_name ('@' :: '0' :: 'x' :: address) clear
      rw [List.mem_cons, not_or] at clear oneLine
      have later := @induction (letter :: before) (.inl (by simp)) clear.2 oneLine.2
      rw [List.cons_append, nameAndAddress?, ended, ite_self]
      simpa [Ne.symm oneLine.1] using later

theorem afterOrdinal?_of_ne {letter : Char} {rest : List Char} (notSlash : letter ≠ '/') :
    afterOrdinal? (letter :: rest) = none := by
  simp [afterOrdinal?, after?, List.isPrefixOf, Ne.symm notSlash]

theorem afterOrdinal?_written {ordinal : List Char} (rest : List Char) (nonempty : ordinal ≠ [])
    (digits : ∀ letter ∈ ordinal, isDigit letter = true) :
    afterOrdinal? ('/' :: (ordinal ++ ' ' :: '(' :: rest)) = some rest := by
  obtain ⟨first, others, rfl⟩ := List.exists_cons_of_ne_nil nonempty
  have remains : (first :: others ++ ' ' :: '(' :: rest).dropWhile isDigit =
      ' ' :: '(' :: rest := by
    rw [List.dropWhile_append_of_pos digits, List.dropWhile_cons_of_neg (by decide)]
  simp only [afterOrdinal?, after?, List.isPrefixOf]
  simp [digits first List.mem_cons_self] at remains ⊢
  simp [remains]

/-- The symbol goes up to the first slash. -/
theorem headerFrom?_written {before symbol rest name address : List Char}
    (nonempty : before ≠ [] ∨ symbol ≠ []) (clear : '/' ∉ symbol) (oneLine : '\n' ∉ symbol)
    (found : (afterOrdinal? ('/' :: rest)).bind (nameAndAddress? []) = some (name, address)) :
    headerFrom? before (symbol ++ '/' :: rest) =
      some ⟨String.ofList (before.reverse ++ symbol), String.ofList name,
        String.ofList address⟩ := by
  induction symbol generalizing before with
  | nil =>
      have started : before ≠ [] := nonempty.resolve_right fun absurd_ => absurd_ rfl
      rw [List.nil_append, headerFrom?, found]
      simp [started]
  | cons letter symbol induction =>
      rw [List.mem_cons, not_or] at clear oneLine
      have later := @induction (letter :: before) (.inl (by simp)) clear.2 oneLine.2
      rw [List.cons_append, headerFrom?, afterOrdinal?_of_ne (Ne.symm clear.1)]
      simpa [Ne.symm oneLine.1] using later

/-! ## Blocks -/

/-- How a symbol stands in its unit. -/
inductive Standing where
  /-- Only the unit sees it. -/
  | fileLocal
  /-- Every unit sees it. -/
  | exported
  /-- Every unit sees it, and another one defines it. -/
  | external
  /-- The compiler made it up. -/
  | artificial
  deriving DecidableEq, Repr

namespace Standing

/-- Whether every unit sees the symbol. -/
def isExported (standing : Standing) : Bool := standing == exported || standing == external

/-- A visibility that has the words for a standing, wherever they stand in it, and no others. -/
@[mk_iff] structure Written (standing : Standing) (text : String) : Prop where
  /-- It is written on one line. -/
  oneLine : OneLine text
  /-- It says that the symbol is public if it is. -/
  exported : Text.contains text "public" = standing.isExported
  /-- It says that the symbol is external if it is. -/
  external : Text.contains text "external" = (standing == .external)
  /-- It says that the symbol is artificial if it is. -/
  artificial : Text.contains text "artificial" = (standing == .artificial)
  /-- Only a public symbol is called weak. -/
  weak : Text.contains text "weak" = true → standing.isExported = true

instance (standing : Standing) (text : String) : Decidable (standing.Written text) :=
  decidable_of_iff' _ (standing.written_iff text)

end Standing

/-- A type that has the word for a kind, wherever it stands in it. -/
@[mk_iff] structure IsType (kind : Kind) (text : String) : Prop where
  /-- It is written on one line. -/
  oneLine : OneLine text
  /-- It has the word for the kind. -/
  named : Text.contains text kind.label = true
  /-- The type of a variable does not have the word for functions. -/
  alone : kind = .object → Text.contains text Kind.function.label = false

instance (kind : Kind) (text : String) : Decidable (IsType kind text) :=
  decidable_of_iff' _ (isType_iff kind text)

/-- A block of a unit, with all that is written of it. -/
structure WrittenBlock where
  /-- The symbol as the linker knows it. -/
  symbol : String
  /-- The ordinal of the compiler's node. -/
  ordinal : String
  /-- The name shown to people. -/
  name : String
  /-- The address of the compiler's node. -/
  address : String
  /-- What the symbol denotes. -/
  kind : Kind
  /-- How that is written. -/
  type : String
  /-- How the symbol stands in its unit. -/
  standing : Standing
  /-- How that is written. -/
  visibility : String
  /-- The lists of edges, in their order; a field may have several. -/
  lists : List (EdgeField × List Mention)

namespace WrittenBlock

/-- The line that opens a block. -/
def headerLine (block : WrittenBlock) : String :=
  block.symbol ++ "/" ++ block.ordinal ++ " (" ++ block.name ++ ") @0x" ++ block.address

/-- The line of a field. -/
def fieldLine (label : Label) (value : String) : String := "  " ++ label.text ++ ":" ++ value

/-- The lines of a block. -/
def lines (block : WrittenBlock) : List String :=
  block.headerLine :: fieldLine .type (" " ++ block.type) ::
    fieldLine .visibility (" " ++ block.visibility) ::
      block.lists.map fun list => fieldLine (.edges list.1) (Mention.texts list.2)

/-- What is asked of a block for it to be written. -/
@[mk_iff] structure Valid (block : WrittenBlock) : Prop where
  /-- The symbol can be written. -/
  symbol : IsSymbol block.symbol
  /-- So can the ordinal. -/
  ordinal : IsOrdinal block.ordinal
  /-- There is a name. -/
  named : block.name ≠ ""
  /-- It does not have the separator of private keys. -/
  nameClear : Key.separator ∉ block.name.toList
  /-- It is written on one line. -/
  nameOneLine : OneLine block.name
  /-- There is an address. -/
  addressed : block.address ≠ ""
  /-- It has hexadecimal digits only. -/
  hex : ∀ letter ∈ block.address.toList, isHexDigit letter = true
  /-- The type names the kind. -/
  type : IsType block.kind block.type
  /-- The visibility names the standing. -/
  visibility : block.standing.Written block.visibility
  /-- Every end of an edge can be written. -/
  mentions : ∀ list ∈ block.lists, ∀ mention ∈ list.2, mention.Valid

instance (block : WrittenBlock) : Decidable block.Valid :=
  decidable_of_iff' _ block.valid_iff

/-- The key of a block of a unit. -/
def key (block : WrittenBlock) (origin : Origin) : Key :=
  if block.standing.isExported then block.symbol else Key.inOrigin block.symbol origin

/-- The symbols that a block lists in a field, each once. -/
def targets (block : WrittenBlock) (field : EdgeField) : List Key :=
  distinctMembers ((block.lists.filter (·.1 = field)).flatMap fun list =>
    list.2.map Mention.symbol)

/-- Whether a block lists anything. -/
def hasEdges (block : WrittenBlock) : Bool := block.lists.any fun list => !list.2.isEmpty

/-- What is known of the symbol of a block. -/
def record (block : WrittenBlock) (origin : Origin) : Record where
  name := block.name
  kind := some block.kind
  visibility := some (if block.standing.isExported then .exported else .fileLocal)
  origins := if block.standing = .external then [] else [origin]
  references := block.targets .references
  referring := block.targets .referring
  calls := block.targets .calls
  calledBy := block.targets .calledBy

/-- A block as its lines say it. -/
def toBlock (block : WrittenBlock) : Block where
  header := ⟨block.symbol, block.name, block.address⟩
  type := trim (" " ++ block.type)
  visibility := trim (" " ++ block.visibility)
  lists := block.lists.map fun list => (list.1, trim (Mention.texts list.2))

/-! ### What a block says -/

variable {block : WrittenBlock} {origin : Origin}

theorem trim_space (text : String) : trim (" " ++ text) = trim text := by
  rw [trim, trim, dropAround, dropAround, String.toList_append]
  rfl

theorem Valid.kind_toBlock (valid : block.Valid) : block.toBlock.kind = some block.kind := by
  have named := valid.type.named
  have word : ∀ kind : Kind, Text.contains block.toBlock.type kind.label =
      Text.contains block.type kind.label := by
    intro kind
    have text : block.toBlock.type = trim block.type := trim_space _
    rw [text]
    apply contains_trim <;> cases kind <;> decide
  have function := word .function
  have object := word .object
  rw [Block.kind, Reader.kindOf?]
  cases kind : block.kind with
  | function =>
      rw [kind] at named
      rw [show Text.contains block.toBlock.type "function" = true from function.trans named]
      rfl
  | object =>
      rw [kind] at named
      rw [show Text.contains block.toBlock.type "function" = false from
          function.trans (valid.type.alone kind),
        show Text.contains block.toBlock.type "variable" = true from object.trans named]
      rfl

/-- The visibility has the words of the standing. -/
theorem Valid.scan_toBlock (valid : block.Valid) :
    Flags.scan block.toBlock.visibility =
      ⟨block.standing.isExported, block.standing == .artificial, block.standing == .external,
        Text.contains block.visibility "weak"⟩ := by
  have seen := valid.visibility
  have text : block.toBlock.visibility = trim block.visibility := trim_space _
  rw [text, Flags.scan, contains_trim (by decide) (by decide),
    contains_trim (by decide) (by decide), contains_trim (by decide) (by decide),
    contains_trim (by decide) (by decide), seen.exported, seen.external, seen.artificial]

theorem Valid.isExported_toBlock (valid : block.Valid) :
    block.toBlock.isExported = block.standing.isExported := by
  rw [Block.isExported, valid.scan_toBlock]

theorem Valid.isExternal_toBlock (valid : block.Valid) :
    block.toBlock.isExternal = (block.standing == .external) := by
  rw [Block.isExternal, valid.scan_toBlock]

theorem Valid.isArtificial_toBlock (valid : block.Valid) :
    block.toBlock.isArtificial = (block.standing == .artificial) := by
  rw [Block.isArtificial, valid.scan_toBlock]

theorem Valid.sound_toBlock (valid : block.Valid) : block.toBlock.Sound where
  named := valid.symbol.nonempty
  unmarked := by
    rw [Key.isPrivate, Bool.eq_false_iff, ne_eq, List.contains_iff_mem]
    exact fun member => (valid.symbol.clear _ member).2.2 rfl
  typed := by
    rw [valid.kind_toBlock]
    rfl
  coherent := by
    have weak := valid.visibility.weak
    simp only [Flags.read, valid.scan_toBlock]
    cases standing : block.standing <;> simp [standing, Standing.isExported] at weak ⊢
    all_goals simp [weak]

theorem Valid.key_toBlock (valid : block.Valid) (origin : Origin) :
    block.toBlock.key origin = block.key origin := by
  rw [Block.key, valid.isExported_toBlock]
  rfl

theorem Valid.tokens_toBlock (valid : block.Valid) (field : EdgeField) :
    distinctMembers (block.toBlock.tokens field) = block.targets field := by
  have each : ∀ list ∈ block.lists.filter (·.1 = field),
      edgeTokens (trim (Mention.texts list.2)) = list.2.map Mention.symbol := by
    intro list member
    have mentions := valid.mentions list (List.mem_filter.mp member).1
    have legible := fun mention listed => (mentions mention listed).legible
    have nonempty := fun mention listed => (mentions mention listed).symbol.nonempty
    rw [edgeTokens_trim (Mention.closes_texts legible), Mention.edgeTokens_texts legible,
      Mention.filter_symbols nonempty]
  rw [Block.tokens, toBlock, targets, List.filter_map, List.flatMap_map]
  exact congrArg distinctMembers (List.flatMap_congr each)

/-- The record of the first block of its key. -/
theorem Valid.extend_toBlock (valid : block.Valid) (origin : Origin) :
    block.toBlock.extend origin none = block.record origin := by
  apply Record.eq_of_edges
  · rw [Block.body_extend, Option.elim_none, Block.declared, Block.audience, Block.origins,
      valid.isExported_toBlock, valid.isExternal_toBlock, valid.kind_toBlock]
    simp only [Record.body, record, beq_iff_eq]
    rfl
  · intro field
    rw [Block.edges_extend_none, valid.tokens_toBlock]
    cases field <;> rfl

theorem hasEdges_record (block : WrittenBlock) (origin : Origin) :
    (block.record origin).hasEdges = block.hasEdges := by
  have edges : ∀ field, (block.record origin).edges field = block.targets field := by
    intro field
    cases field <;> rfl
  rw [Bool.eq_iff_iff, Record.hasEdges_iff, hasEdges, List.any_eq_true]
  simp only [edges, targets, mem_distinctMembers, List.mem_flatMap, List.mem_filter,
    decide_eq_true_eq, List.mem_map, Bool.not_eq_true', List.isEmpty_eq_false_iff]
  constructor
  · rintro ⟨field, key, list, ⟨listed, -⟩, mention, member, -⟩
    exact ⟨list, listed, List.ne_nil_of_mem member⟩
  · rintro ⟨list, listed, nonempty⟩
    obtain ⟨mention, member⟩ := List.exists_mem_of_ne_nil _ nonempty
    exact ⟨list.1, mention.symbol, list, ⟨listed, rfl⟩, mention, member, rfl⟩

/-! ### How a block is read -/

theorem toList_headerLine (block : WrittenBlock) :
    block.headerLine.toList = block.symbol.toList ++ '/' :: (block.ordinal.toList ++
      ' ' :: '(' :: (block.name.toList ++
        ')' :: ' ' :: '@' :: '0' :: 'x' :: block.address.toList)) := by
  simp [headerLine]

theorem Valid.trimRight_headerLine (valid : block.Valid) :
    trimRight block.headerLine = block.headerLine := by
  have address : block.address.toList ≠ [] := by simpa using valid.addressed
  rw [trimRight, dropTrailing_eq_self, String.ofList_toList]
  intro letter last
  have ends : block.address.toList.getLast? = some letter := by
    rw [headerLine, String.toList_append, List.getLast?_append_of_ne_nil _ address] at last
    exact last
  exact isBlank_of_isHexDigit (valid.hex letter (List.mem_of_getLast? ends))

theorem Valid.readLine_headerLine (valid : block.Valid) :
    readLine (trimRight block.headerLine) = .ok (.header block.toBlock.header) := by
  have symbol : block.symbol.toList ≠ [] := by simpa using valid.symbol.nonempty
  have found : header? block.headerLine = some block.toBlock.header := by
    have named := @nameAndAddress?_written [] block.name.toList block.address.toList
      (.inr (by simpa using valid.named)) valid.nameClear valid.nameOneLine.newline_not_mem
      (by simpa using valid.addressed) valid.hex
    have rest := afterOrdinal?_written
      (block.name.toList ++ ')' :: ' ' :: '@' :: '0' :: 'x' :: block.address.toList)
      (by simpa using valid.ordinal.nonempty) valid.ordinal.digits
    have noSlash : '/' ∉ block.symbol.toList := fun member => (valid.symbol.clear _ member).2.1 rfl
    have noFeed : '\n' ∉ block.symbol.toList := fun member =>
      absurd (valid.symbol.visible _ member) (by decide)
    have both := (congrArg (·.bind (nameAndAddress? [])) rest).trans named
    rw [header?, toList_headerLine, headerFrom?_written (.inr symbol) noSlash noFeed both]
    simp [toBlock]
  have begins : block.headerLine.toList.head?.any isBlank = false := by
    obtain ⟨first, others, shape⟩ := List.exists_cons_of_ne_nil symbol
    rw [toList_headerLine, shape]
    exact valid.symbol.visible first (shape ▸ List.mem_cons_self)
  have unmarked : Key.isPrivate block.symbol = false := valid.sound_toBlock.unmarked
  have nameUnmarked : Key.isPrivate block.name = false := by
    rw [Key.isPrivate, Bool.eq_false_iff, ne_eq, List.contains_iff_mem]
    exact valid.nameClear
  rw [valid.trimRight_headerLine, readLine, begins, found]
  simp [toBlock, unmarked, nameUnmarked]

theorem Valid.read_lines (valid : block.Valid) :
    block.lines.map (fun line => readLine (trimRight line)) = block.toBlock.lines.map .ok := by
  have space : OneLine " " := by decide
  have type := readLine_field .type (space.append valid.type.oneLine)
  have visibility := readLine_field .visibility (space.append valid.visibility.oneLine)
  have lists : ∀ list ∈ block.lists,
      readLine (trimRight (fieldLine (.edges list.1) (Mention.texts list.2))) =
        .ok (.field (.edges list.1) (trim (Mention.texts list.2))) := by
    intro list member
    exact readLine_field _ (Mention.oneLine_texts (valid.mentions list member))
  rw [lines, Block.lines, List.map_cons, List.map_cons, List.map_cons, List.map_cons,
    List.map_cons, List.map_cons, valid.readLine_headerLine, fieldLine, type, fieldLine,
    visibility, toBlock]
  simp only [List.map_map, Function.comp_def]
  rw [List.map_congr_left lists]

theorem oneLine_fieldLine (label : Label) {value : String} (oneLine : OneLine value) :
    OneLine (fieldLine label value) := by
  have start : OneLine ("  " ++ label.text ++ ":") := by
    rcases label with _ | _ | (_ | _ | _ | _) <;> decide
  exact start.append oneLine

theorem Valid.oneLine (valid : block.Valid) : ∀ line ∈ block.lines, OneLine line := by
  have space : OneLine " " := by decide
  have address : OneLine block.address :=
    oneLine_of_visible fun letter member => isBlank_of_isHexDigit (valid.hex letter member)
  have header : OneLine block.headerLine :=
    ((((((oneLine_of_visible valid.symbol.visible).append (by decide)).append
      valid.ordinal.oneLine).append (by decide)).append valid.nameOneLine).append
        (by decide)).append address
  intro line member
  simp only [lines, List.mem_cons, List.mem_map] at member
  rcases member with rfl | rfl | rfl | ⟨list, listed, rfl⟩
  · exact header
  · exact oneLine_fieldLine _ (space.append valid.type.oneLine)
  · exact oneLine_fieldLine _ (space.append valid.visibility.oneLine)
  · exact oneLine_fieldLine _ (Mention.oneLine_texts (valid.mentions list listed))

/-- No line of a block is blank. -/
theorem Valid.not_blank (valid : block.Valid) : ∀ line ∈ block.lines, trimRight line ≠ "" := by
  intro line member empty
  have read : readLine (trimRight line) ∈ block.toBlock.lines.map Except.ok := by
    rw [← valid.read_lines]
    exact List.mem_map.mpr ⟨line, member, rfl⟩
  obtain ⟨item, -, said⟩ := List.mem_map.mp read
  rw [empty] at said
  cases said

end WrittenBlock

/-! ## Units -/

/-- A line of blanks. -/
@[mk_iff] structure IsBlankLine (line : String) : Prop where
  /-- It has no line boundary. -/
  oneLine : OneLine line
  /-- It has blanks only. -/
  blank : ∀ letter ∈ line.toList, isBlank letter = true

instance (line : String) : Decidable (IsBlankLine line) :=
  decidable_of_iff' _ (isBlankLine_iff line)

theorem IsBlankLine.trimRight_eq {line : String} (blank : IsBlankLine line) :
    trimRight line = "" := by
  rw [trimRight, dropTrailing_eq_nil blank.blank, String.ofList_nil]

/-- A dump as it is written: the section of its blocks, between other text. -/
structure WrittenUnit where
  /-- The lines before the section. -/
  preamble : List String
  /-- The line after its title. -/
  gap : String
  /-- The blocks of the section. -/
  blocks : List WrittenBlock
  /-- The line after the section. -/
  closing : String
  /-- All that follows. -/
  rest : String

namespace WrittenUnit

/-- The text of a dump. -/
def text (unit : WrittenUnit) : String :=
  String.join ((unit.preamble ++ sectionTitle :: unit.gap ::
    (unit.blocks.flatMap WrittenBlock.lines ++ [unit.closing])).map fun line => line ++ "\n") ++
      unit.rest

/-- What is asked of a dump for it to be written. -/
@[mk_iff] structure Valid (unit : WrittenUnit) : Prop where
  /-- The lines before the section are lines. -/
  oneLine : ∀ line ∈ unit.preamble, OneLine line
  /-- None of them is the title of the section. -/
  untitled : ∀ line ∈ unit.preamble, trimRight line ≠ sectionTitle
  /-- The line after the title is blank. -/
  gap : IsBlankLine unit.gap
  /-- So is the line after the section. -/
  closing : IsBlankLine unit.closing
  /-- Every block can be written. -/
  blocks : ∀ block ∈ unit.blocks, block.Valid
  /-- No two blocks are of the same symbol. -/
  symbols : (unit.blocks.map WrittenBlock.symbol).Nodup

instance (unit : WrittenUnit) : Decidable unit.Valid :=
  decidable_of_iff' _ unit.valid_iff

variable {unit : WrittenUnit}

theorem afterTitle_append {lines : List String} (rest : List String)
    (untitled : ∀ line ∈ lines, trimRight line ≠ sectionTitle) :
    afterTitle (lines ++ sectionTitle :: rest) = rest := by
  have title : trimRight sectionTitle = sectionTitle := by decide
  induction lines with
  | nil => simp [afterTitle, title]
  | cons line lines induction =>
      have later := induction fun other member => untitled other (List.mem_cons_of_mem _ member)
      simpa [afterTitle, untitled line List.mem_cons_self] using later

theorem untilBlank_append {lines : List String} {closing : String} (rest : List String)
    (visible : ∀ line ∈ lines, trimRight line ≠ "") (blank : IsBlankLine closing) :
    untilBlank (lines ++ closing :: rest) = lines.map trimRight := by
  have kept : ∀ line ∈ lines.map trimRight, (!line.isEmpty) = true := by
    intro line member
    obtain ⟨written, listed, rfl⟩ := List.mem_map.mp member
    simpa using visible written listed
  rw [untilBlank, List.map_append, List.takeWhile_append_of_pos kept, List.map_cons,
    blank.trimRight_eq]
  simp

/-- The section is cut out as it was written. -/
theorem Valid.symbolSection_eq (valid : unit.Valid) :
    symbolSection (splitLines unit.text) =
      (unit.blocks.flatMap WrittenBlock.lines).map trimRight := by
  have oneLine : ∀ line ∈ unit.preamble ++ sectionTitle :: unit.gap ::
      (unit.blocks.flatMap WrittenBlock.lines ++ [unit.closing]), OneLine line := by
    intro line member
    simp only [List.mem_append, List.mem_cons, List.mem_flatMap, List.not_mem_nil,
      or_false] at member
    rcases member with before | rfl | rfl | ⟨block, listed, inBlock⟩ | rfl
    · exact valid.oneLine line before
    · decide
    · exact valid.gap.oneLine
    · exact (valid.blocks block listed).oneLine line inBlock
    · exact valid.closing.oneLine
  have visible : ∀ line ∈ unit.blocks.flatMap WrittenBlock.lines, trimRight line ≠ "" := by
    intro line member
    obtain ⟨block, listed, inBlock⟩ := List.mem_flatMap.mp member
    exact (valid.blocks block listed).not_blank line inBlock
  have empty : (trimRight unit.gap).isEmpty = true := by
    rw [valid.gap.trimRight_eq]
    rfl
  rw [text, splitLines_join_append oneLine, List.append_assoc, List.cons_append, List.cons_append,
    List.append_assoc, List.singleton_append, symbolSection, afterTitle_append _ valid.untitled]
  simp only [empty, if_true]
  exact untilBlank_append _ visible valid.closing

/-- The lines of the section say what the blocks were written for. -/
theorem Valid.read_section (valid : unit.Valid) :
    (symbolSection (splitLines unit.text)).map readLine =
      ((unit.blocks.map WrittenBlock.toBlock).flatMap Block.lines).map .ok := by
  have each : ∀ block ∈ unit.blocks,
      block.lines.map (fun line => readLine (trimRight line)) = block.toBlock.lines.map .ok :=
    fun block listed => (valid.blocks block listed).read_lines
  rw [valid.symbolSection_eq, List.map_map, List.map_flatMap, List.flatMap_map, List.map_flatMap]
  exact List.flatMap_congr each

end WrittenUnit

end CallGraph.Dump
