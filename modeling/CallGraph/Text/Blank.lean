/-!
# Blank characters

White space as dumps and persisted tables understand it: the ASCII blanks and information
separators, the next-line control and the space separators of every script.  The zero-width
characters are not blank.  Trimming and word splitting are built on this one class.
-/

namespace CallGraph.Text

/-- White space of any script. -/
def isBlank (c : Char) : Bool :=
  let code := c.toNat
  (0x09 ≤ code && code ≤ 0x0D) || (0x1C ≤ code && code ≤ 0x20) || code == 0x85 || code == 0xA0 ||
    code == 0x1680 || (0x2000 ≤ code && code ≤ 0x200A) || code == 0x2028 || code == 0x2029 ||
    code == 0x202F || code == 0x205F || code == 0x3000

/-- White space of any script without the ASCII information separators. -/
def isWhiteSpace (c : Char) : Bool :=
  isBlank c && !(0x1C ≤ c.toNat && c.toNat ≤ 0x1F)

/-- The characters up to the last one that `drop` does not accept. -/
def dropTrailing {α : Type} (drop : α → Bool) (letters : List α) : List α :=
  (letters.reverse.dropWhile drop).reverse

/-- The characters between the first and the last one that `drop` does not accept. -/
def dropAround {α : Type} (drop : α → Bool) (letters : List α) : List α :=
  dropTrailing drop (letters.dropWhile drop)

/-- A text without its trailing blanks. -/
def trimRight (text : String) : String :=
  String.ofList (dropTrailing isBlank text.toList)

/-- A text without its leading and trailing blanks. -/
def trim (text : String) : String :=
  String.ofList (dropAround isBlank text.toList)

/-- The maximal blank-free pieces of a character sequence, in order. -/
def wordsOf (letters : List Char) : List (List Char) :=
  (letters.splitOnP isBlank).filter fun word => !word.isEmpty

/-- Whether `part` occurs in `letters` as a run of consecutive characters. -/
def occursIn (part : List Char) : List Char → Bool
  | [] => part.isEmpty
  | letter :: letters => part.isPrefixOf (letter :: letters) || occursIn part letters

/-- Whether `part` occurs somewhere in `text`. -/
def contains (text part : String) : Bool :=
  occursIn part.toList text.toList

end CallGraph.Text
