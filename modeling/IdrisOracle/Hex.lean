import IdrisOracle.CString
import IdrisOracle.Types
import Mathlib.Tactic.IntervalCases

/-! The two hexadecimal writers, in Idris and in the C layer, and the Idris reader. -/

namespace IdrisOracle

/-- The uppercase digit of a four-bit value; larger values are treated as 15. -/
def hexDigit (n : UInt8) : Char :=
  match n with
  | 0 => '0'
  | 1 => '1'
  | 2 => '2'
  | 3 => '3'
  | 4 => '4'
  | 5 => '5'
  | 6 => '6'
  | 7 => '7'
  | 8 => '8'
  | 9 => '9'
  | 10 => 'A'
  | 11 => 'B'
  | 12 => 'C'
  | 13 => 'D'
  | 14 => 'E'
  | _ => 'F'

def hexByte (byte : UInt8) : List Char := [hexDigit (byte >>> 4), hexDigit (byte &&& 0x0F)]

/-- Encode a list of bytes as an uppercase hexadecimal String. -/
def hexEncode (bytes : List UInt8) : String := String.ofList (bytes.flatMap hexByte)

def hexValue : Char → Option UInt8
  | '0' => some 0
  | '1' => some 1
  | '2' => some 2
  | '3' => some 3
  | '4' => some 4
  | '5' => some 5
  | '6' => some 6
  | '7' => some 7
  | '8' => some 8
  | '9' => some 9
  | 'A' => some 10
  | 'B' => some 11
  | 'C' => some 12
  | 'D' => some 13
  | 'E' => some 14
  | 'F' => some 15
  | 'a' => some 10
  | 'b' => some 11
  | 'c' => some 12
  | 'd' => some 13
  | 'e' => some 14
  | 'f' => some 15
  | _ => none

def hexPair (hi lo : Char) : Option UInt8 := do
  let hi' ← hexValue hi
  let lo' ← hexValue lo
  pure ((hi' <<< 4) ||| lo')

def hexDecode.go : List Char → Option (List UInt8)
  | [] => some []
  | hi :: lo :: rest => do
      let byte ← hexPair hi lo
      let bytes ← go rest
      pure (byte :: bytes)
  | [_] => none

/-- Decode hexadecimal text of either case; `none` for an odd length or another character. -/
def hexDecode (str : String) : Option (List UInt8) := hexDecode.go str.toList

/-- The `digits` table of the C layer. -/
def digits : List UInt8 :=
  [0x30, 0x31, 0x32, 0x33, 0x34, 0x35, 0x36, 0x37, 0x38, 0x39, 0x41, 0x42, 0x43, 0x44, 0x45, 0x46]

def digitAt (nibble : UInt8) : UInt8 := digits.getD nibble.toNat 0

/-- The stores of the C loop, whose counter and offsets wrap at `width`, from index `i` on. -/
def hexWrites (width : Nat) : Nat → List UInt8 → List (Nat × UInt8)
  | _, [] => []
  | i, byte :: bytes =>
      (i * 2 % width, digitAt ((byte >>> 4) &&& 0x0F)) ::
        ((i * 2 % width + 1) % width, digitAt (byte &&& 0x0F)) :: hexWrites width (i + 1) bytes

def store (block : List UInt8) (write : Nat × UInt8) : List UInt8 := block.set write.1 write.2

/-- The C string left in a block of `2 * length + 1` bytes by the loop and the final zero. -/
def hexBlock (width : Nat) (bytes : List UInt8) : List UInt8 :=
  let block := (hexWrites width 0 bytes).foldl store (List.replicate (bytes.length * 2 + 1) 0)
  block.set (bytes.length * 2) 0

theorem hexDigit_encode (n : UInt8) (hn : n.toNat < 16) :
    String.utf8EncodeChar (hexDigit n) = [digitAt n] := by
  obtain ⟨k, hk, rfl⟩ : ∃ k : Nat, k < 16 ∧ n = UInt8.ofNat k := ⟨n.toNat, hn, by simp⟩
  interval_cases k <;> decide

theorem hexValue_hexDigit (n : UInt8) (hn : n.toNat < 16) : hexValue (hexDigit n) = some n := by
  obtain ⟨k, hk, rfl⟩ : ∃ k : Nat, k < 16 ∧ n = UInt8.ofNat k := ⟨n.toNat, hn, by simp⟩
  interval_cases k <;> decide

theorem toNat_high_lt (byte : UInt8) : (byte >>> 4).toNat < 16 := by
  have := byte.toNat_lt
  simp only [UInt8.toNat_shiftRight, Nat.shiftRight_eq_div_pow]
  change byte.toNat / 2 ^ 4 < 16
  omega

theorem toNat_low_lt (byte : UInt8) : (byte &&& 0x0F).toNat < 16 := by
  have := Nat.and_lt_two_pow (n := 4) byte.toNat (show (0x0F : UInt8).toNat < 2 ^ 4 by decide)
  simpa using this

theorem high_low (byte : UInt8) : (byte >>> 4) <<< 4 ||| (byte &&& 0x0F) = byte := by
  have hlt := byte.toNat_lt
  have hlow : byte.toNat &&& 15 = byte.toNat % 2 ^ 4 := Nat.and_two_pow_sub_one_eq_mod _ 4
  have hhigh : byte.toNat >>> 4 <<< 4 % 2 ^ 8 = byte.toNat >>> 4 <<< 4 := by
    rw [Nat.shiftLeft_eq, Nat.shiftRight_eq_div_pow]
    omega
  apply UInt8.toNat_inj.mp
  simp only [UInt8.toNat_or, UInt8.toNat_shiftLeft, UInt8.toNat_shiftRight, UInt8.toNat_and]
  change byte.toNat >>> 4 <<< 4 % 2 ^ 8 ||| byte.toNat &&& 15 = byte.toNat
  rw [hhigh, hlow, ← Nat.shiftLeft_add_eq_or_of_lt (Nat.mod_lt _ (by decide)),
    Nat.shiftLeft_eq, Nat.shiftRight_eq_div_pow]
  omega

theorem hexPair_hexByte (byte : UInt8) :
    hexPair (hexDigit (byte >>> 4)) (hexDigit (byte &&& 0x0F)) = some byte := by
  rw [hexPair, hexValue_hexDigit _ (toNat_high_lt byte), hexValue_hexDigit _ (toNat_low_lt byte)]
  exact congrArg some (high_low byte)

/-- Reading back what the Idris writer wrote gives the same bytes. -/
theorem hexDecode_hexEncode (bytes : List UInt8) : hexDecode (hexEncode bytes) = some bytes := by
  rw [hexDecode, hexEncode, String.toList_ofList]
  induction bytes with
  | nil => rfl
  | cons byte bytes ih =>
      simp only [List.flatMap_cons, hexByte, List.cons_append, List.nil_append, hexDecode.go,
        hexPair_hexByte, ih]
      rfl

theorem high_masked (byte : UInt8) : (byte >>> 4) &&& (0x0F : UInt8) = byte >>> 4 := by
  have hlow : (byte >>> 4).toNat &&& 15 = (byte >>> 4).toNat % 2 ^ 4 :=
    Nat.and_two_pow_sub_one_eq_mod _ 4
  apply UInt8.toNat_inj.mp
  rw [UInt8.toNat_and]
  change (byte >>> 4).toNat &&& 15 = (byte >>> 4).toNat
  rw [hlow]
  exact Nat.mod_eq_of_lt (toNat_high_lt byte)

/-- The bytes of the hexadecimal text, as both writers mean it. -/
def hexBytes (bytes : List UInt8) : List UInt8 :=
  bytes.flatMap fun byte : UInt8 => [digitAt (byte >>> 4), digitAt (byte &&& 0x0F)]

theorem length_hexBytes (bytes : List UInt8) : (hexBytes bytes).length = bytes.length * 2 := by
  simp [hexBytes, List.length_flatMap]

theorem encode_hexEncode (bytes : List UInt8) :
    CString.encode (hexEncode bytes).toList = hexBytes bytes := by
  rw [hexEncode, String.toList_ofList]
  induction bytes with
  | nil => rfl
  | cons byte bytes ih =>
      simp only [List.flatMap_cons, hexByte, List.cons_append, List.nil_append,
        CString.encode_cons, hexDigit_encode _ (toNat_high_lt byte),
        hexDigit_encode _ (toNat_low_lt byte), ih, hexBytes]

/-- As long as the counter does not wrap, the loop fills its part of the block in order. -/
theorem foldl_hexWrites (width i : Nat) (bytes : List UInt8) (front middle back : List UInt8)
    (hfront : front.length = i * 2) (hmiddle : middle.length = bytes.length * 2)
    (hwidth : (i + bytes.length) * 2 ≤ width) :
    (hexWrites width i bytes).foldl store (front ++ middle ++ back) =
      front ++ hexBytes bytes ++ back := by
  induction bytes generalizing i front middle with
  | nil =>
      obtain rfl : middle = [] := by simpa using hmiddle
      simp [hexWrites, hexBytes]
  | cons byte bytes ih =>
      obtain ⟨x, middle, rfl⟩ := List.exists_cons_of_length_pos (l := middle) (by simp at *; omega)
      obtain ⟨y, middle, rfl⟩ := List.exists_cons_of_length_pos (l := middle) (by simp at *; omega)
      simp only [List.length_cons] at hmiddle hwidth
      have hhi : i * 2 % width = front.length := by
        rw [Nat.mod_eq_of_lt (by omega), hfront]
      have hlo : (front.length + 1) % width = front.length + 1 := Nat.mod_eq_of_lt (by omega)
      have hstores : store (store (front ++ x :: y :: middle ++ back)
          (front.length, digitAt (byte >>> 4))) (front.length + 1, digitAt (byte &&& 0x0F)) =
          (front ++ [digitAt (byte >>> 4), digitAt (byte &&& 0x0F)]) ++ middle ++ back := by
        simp [store]
      rw [hexWrites, hhi, hlo, high_masked, List.foldl_cons, List.foldl_cons, hstores,
        ih (i + 1) _ middle (by simp; omega) (by omega) (by omega)]
      simp [hexBytes]

/-- The C writer leaves the text of the Idris writer and a final zero. -/
theorem hexBlock_eq (width : Nat) (bytes : List UInt8) (hwidth : bytes.length * 2 ≤ width) :
    hexBlock width bytes = CString.encode (hexEncode bytes).toList ++ [0] := by
  have hfill := foldl_hexWrites width 0 bytes [] (List.replicate (bytes.length * 2) 0) [0] rfl
    (by simp) (by simpa using hwidth)
  have hinit : List.replicate (bytes.length * 2 + 1) (0 : UInt8) =
      [] ++ List.replicate (bytes.length * 2) 0 ++ [0] := by
    simp [List.replicate_succ']
  simp only [hexBlock]
  rw [hinit, hfill, encode_hexEncode, ← length_hexBytes]
  simp

theorem zero_not_mem_hexBytes (bytes : List UInt8) : (0 : UInt8) ∉ hexBytes bytes := by
  have hdigit : ∀ n : UInt8, n.toNat < 16 → digitAt n ≠ 0 := by
    intro n hn
    obtain ⟨k, hk, rfl⟩ : ∃ k : Nat, k < 16 ∧ n = UInt8.ofNat k := ⟨n.toNat, hn, by simp⟩
    interval_cases k <;> decide
  simp only [hexBytes, List.mem_flatMap, List.mem_cons, List.not_mem_nil, or_false, not_exists,
    not_and, not_or]
  intro byte _
  exact ⟨(hdigit _ (toNat_high_lt byte)).symm, (hdigit _ (toNat_low_lt byte)).symm⟩

theorem read_hexBlock (width : Nat) (bytes : List UInt8) (hwidth : bytes.length * 2 ≤ width) :
    CString.read (hexBlock width bytes) = hexEncode bytes := by
  have hcut : CString.cut (hexBytes bytes ++ [0]) = hexBytes bytes := by
    rw [CString.cut, List.takeWhile_append_of_pos]
    · simp
    · intro b hb
      rw [bne_iff_ne]
      rintro rfl
      exact zero_not_mem_hexBytes bytes hb
  rw [hexBlock_eq width bytes hwidth, encode_hexEncode, CString.read, hcut, ← encode_hexEncode,
    CString.decode_encode, String.ofList_toList]

end IdrisOracle
