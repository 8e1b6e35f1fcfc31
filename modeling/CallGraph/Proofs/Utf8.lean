import CallGraph.Text.Utf8

/-!
# Texts as bytes

Strict reading undoes the writing of a text.  A line feed is the only character with the byte of a
line feed in it, so that bytes can be cut into lines before they are read.
-/

namespace CallGraph.Text

/-! ## Reading what was written -/

theorem toList_loop_eq (bytes : ByteArray) (start : Nat) (seen : List UInt8) :
    ByteArray.toList.loop bytes start seen = seen.reverse ++ bytes.data.toList.drop start := by
  fun_induction ByteArray.toList.loop bytes start seen with
  | case1 start seen inside induction =>
      have bound : start < bytes.data.toList.length := by simpa using inside
      calc
        _ = seen.reverse ++ bytes.get! start :: bytes.data.toList.drop (start + 1) := by
          rw [induction, List.reverse_cons, List.append_assoc, List.singleton_append]
        _ = seen.reverse ++ bytes.data.toList.drop start := by
          rw [List.drop_eq_getElem_cons bound]
          simp [ByteArray.get!, inside]
  | case2 start seen outside =>
      have bound : bytes.data.toList.length ≤ start := by simpa using outside
      rw [List.drop_eq_nil_of_le bound, List.append_nil]

theorem toList_eq_data (bytes : ByteArray) : bytes.toList = bytes.data.toList := by
  rw [ByteArray.toList, toList_loop_eq]
  rfl

/-- The bytes of characters. -/
def utf8 (letters : List Char) : List UInt8 := letters.flatMap String.utf8EncodeChar

theorem utf8_cons (letter : Char) (letters : List Char) :
    utf8 (letter :: letters) = String.utf8EncodeChar letter ++ utf8 letters := rfl

@[simp] theorem utf8_append (letters more : List Char) :
    utf8 (letters ++ more) = utf8 letters ++ utf8 more :=
  List.flatMap_append

theorem data_encode (letters : List Char) :
    (encode (String.ofList letters)).data.toList = utf8 letters := by
  rw [encode, String.toUTF8_eq_toByteArray, String.toByteArray_ofList, List.utf8Encode,
    List.toList_data_toByteArray, utf8]

theorem toList_encode (letters : List Char) :
    (encode (String.ofList letters)).toList = utf8 letters := by
  rw [toList_eq_data, data_encode]

theorem decode?_encode (text : String) : decode? (encode text) = some text := by
  have valid : text.toUTF8.IsValidUTF8 := text.isValidUTF8
  rw [decode?, encode, String.fromUTF8?, dif_pos valid]
  rfl

theorem encode_injective {left right : String} (same : encode left = encode right) :
    left = right := by
  have decoded := congrArg decode? same
  rwa [decode?_encode, decode?_encode, Option.some.injEq] at decoded

/-- Bytes that were written are read back. -/
theorem decode?_utf8 (letters : List Char) :
    decode? ⟨(utf8 letters).toArray⟩ = some (String.ofList letters) := by
  rw [← data_encode, Array.toArray_toList]
  exact decode?_encode _

/-! ## Lines -/

/-- All bytes of a character outside ASCII have their highest bit set. -/
theorem high_of_mem_utf8EncodeChar {letter : Char} {byte : UInt8} (long : 127 < letter.toNat)
    (member : byte ∈ String.utf8EncodeChar letter) : 128 ≤ byte.toNat := by
  change 127 < letter.val.toNat at long
  rw [String.utf8EncodeChar.eq_1, if_neg (by omega)] at member
  split at member
  · simp only [List.mem_cons, List.not_mem_nil, or_false] at member
    rcases member with rfl | rfl <;> simp only [UInt8.toNat_ofNat'] <;> omega
  split at member
  · simp only [List.mem_cons, List.not_mem_nil, or_false] at member
    rcases member with rfl | rfl | rfl <;> simp only [UInt8.toNat_ofNat'] <;> omega
  · simp only [List.mem_cons, List.not_mem_nil, or_false] at member
    rcases member with rfl | rfl | rfl | rfl <;> simp only [UInt8.toNat_ofNat'] <;> omega

theorem newline_mem_utf8EncodeChar {letter : Char} (member : 10 ∈ String.utf8EncodeChar letter) :
    letter = '\n' := by
  by_cases long : 127 < letter.toNat
  · exact absurd (high_of_mem_utf8EncodeChar long member) (by decide)
  · have short : letter.val.toNat ≤ 127 := Nat.le_of_not_lt long
    rw [String.utf8EncodeChar.eq_1, if_pos short, List.mem_singleton] at member
    have byte : 10 = letter.val.toNat % 256 := congrArg UInt8.toNat member
    have code : letter.toNat = 10 := by
      change letter.val.toNat = 10
      omega
    rw [← Char.ofNat_toNat letter, code]

theorem newline_notMem_utf8 {letters : List Char} (free : '\n' ∉ letters) :
    10 ∉ utf8 letters := by
  intro member
  obtain ⟨letter, listed, inside⟩ := List.mem_flatMap.mp member
  exact free (newline_mem_utf8EncodeChar inside ▸ listed)

/-- Bytes that were written line by line are cut into the same lines, with nothing after the last
line feed. -/
theorem splitOn_utf8_lines {lines : List (List Char)} (free : ∀ line ∈ lines, '\n' ∉ line) :
    (utf8 (lines.flatMap fun line => line ++ ['\n'])).splitOn 10 = lines.map utf8 ++ [[]] := by
  induction lines with
  | nil => rfl
  | cons line lines induction =>
      rw [List.forall_mem_cons] at free
      have cut := List.splitOn_append_cons_self_of_not_mem (newline_notMem_utf8 free.1)
        (utf8 (lines.flatMap fun line => line ++ ['\n']))
      rw [List.flatMap_cons, utf8_append, utf8_append, List.append_assoc]
      exact cut.trans (by rw [induction free.2]; rfl)

end CallGraph.Text
