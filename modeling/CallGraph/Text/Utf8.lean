/-!
# Reading bytes as text

Strict reading refuses bytes that are not UTF-8.  Lenient reading puts the replacement character
in the place of every maximal part that cannot be continued to a character: a reader stops at the
first byte that rules the character out and starts afresh with that byte.
-/

namespace CallGraph.Text

/-- A character that lacks `missing` bytes, the next of which lies between `low` and `high`. -/
structure Unfinished where
  /-- The bits read so far. -/
  bits : Nat
  /-- How many bytes are still to come. -/
  missing : Nat
  /-- The least value that the next byte may have. -/
  low : Nat := 0x80
  /-- The greatest value that the next byte may have. -/
  high : Nat := 0xBF

/-- What a byte opens between two characters: a finished character, a begun one, or nothing. -/
inductive Opening where
  /-- The byte is a character by itself. -/
  | whole (letter : Char)
  /-- The byte begins a longer character. -/
  | begun (rest : Unfinished)
  /-- No character begins with this byte. -/
  | refused

/-- What a first byte opens. -/
def opening (byte : Nat) : Opening :=
  if byte < 0x80 then .whole (Char.ofNat byte)
  else if 0xC2 ≤ byte && byte ≤ 0xDF then .begun ⟨byte - 0xC0, 1, 0x80, 0xBF⟩
  else if byte == 0xE0 then .begun ⟨0, 2, 0xA0, 0xBF⟩
  else if byte == 0xED then .begun ⟨0xD, 2, 0x80, 0x9F⟩
  else if 0xE1 ≤ byte && byte ≤ 0xEF then .begun ⟨byte - 0xE0, 2, 0x80, 0xBF⟩
  else if byte == 0xF0 then .begun ⟨0, 3, 0x90, 0xBF⟩
  else if byte == 0xF4 then .begun ⟨4, 3, 0x80, 0x8F⟩
  else if 0xF1 ≤ byte && byte ≤ 0xF3 then .begun ⟨byte - 0xF0, 3, 0x80, 0xBF⟩
  else .refused

/-- The character that stands for bytes which are no character. -/
def replacement : Char := '\uFFFD'

/-- The characters a byte gives between two characters, and what it begins. -/
def openByte (byte : Nat) : List Char × Option Unfinished :=
  match opening byte with
  | .whole letter => ([letter], none)
  | .begun rest => ([], some rest)
  | .refused => ([replacement], none)

/-- The characters a byte gives after a begun character, and what is begun after it. -/
def feedByte (begun : Option Unfinished) (byte : Nat) : List Char × Option Unfinished :=
  match begun with
  | none => openByte byte
  | some rest =>
      if rest.low ≤ byte && byte ≤ rest.high then
        let bits := rest.bits * 0x40 + (byte - 0x80)
        if rest.missing ≤ 1 then ([Char.ofNat bits], none)
        else ([], some { bits, missing := rest.missing - 1 })
      else
        let (letters, next) := openByte byte
        (replacement :: letters, next)

/-- Lenient reading from a begun character on. -/
def decodeFrom (begun : Option Unfinished) : List UInt8 → List Char
  | [] => if begun.isSome then [replacement] else []
  | byte :: bytes =>
      let (letters, next) := feedByte begun byte.toNat
      letters ++ decodeFrom next bytes

/-- Lenient reading: bytes that are no character give the replacement character. -/
def decodeLenient (bytes : ByteArray) : String :=
  String.ofList (decodeFrom none bytes.toList)

/-- Strict reading: refuses bytes that are not UTF-8. -/
def decode? (bytes : ByteArray) : Option String :=
  String.fromUTF8? bytes

/-- The UTF-8 bytes of a text. -/
def encode (text : String) : ByteArray :=
  text.toUTF8

end CallGraph.Text
