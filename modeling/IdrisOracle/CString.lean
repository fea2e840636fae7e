import Mathlib.Data.List.Basic
import Mathlib.Data.List.TakeWhile
import Mathlib.Tactic.Common

/-! Texts as C strings: UTF-8 bytes that end at the first zero byte. -/

namespace CString

/-- The UTF-8 bytes of a text. -/
def encode (cs : List Char) : List UInt8 := cs.flatMap String.utf8EncodeChar

/-- The bytes C sees of a buffer read as a string. -/
def cut (bytes : List UInt8) : List UInt8 := bytes.takeWhile (· != 0)

/-- The characters C sees of a text handed over as a string. -/
def visible (cs : List Char) : List Char := cs.takeWhile (· != '\x00')

def decodeFrom : Nat → List UInt8 → List Char
  | 0, _ => []
  | _ + 1, [] => []
  | n + 1, b :: bs =>
      match (b :: bs).toByteArray.utf8DecodeChar? 0 with
      | some c => c :: decodeFrom n ((b :: bs).drop c.utf8Size)
      | none => '\uFFFD' :: decodeFrom n bs

/-- UTF-8 decoding, one replacement character for every byte that starts no character. -/
def decode (bytes : List UInt8) : List Char := decodeFrom bytes.length bytes

/-- The text read back from a C string in a buffer. -/
def read (bytes : List UInt8) : String := String.ofList (decode (cut bytes))

@[simp] theorem encode_nil : encode [] = [] := rfl

@[simp] theorem encode_cons (c : Char) (cs : List Char) :
    encode (c :: cs) = String.utf8EncodeChar c ++ encode cs := rfl

theorem decodeChar_append (c : Char) (bytes : List UInt8) :
    (String.utf8EncodeChar c ++ bytes).toByteArray.utf8DecodeChar? 0 = some c := by
  rw [List.toByteArray_append]
  exact ByteArray.utf8DecodeChar?_utf8EncodeChar_append

/-- Decoding goes past a whole character. -/
theorem decodeFrom_encode_append (n : Nat) (c : Char) (bytes : List UInt8) :
    decodeFrom (n + 1) (String.utf8EncodeChar c ++ bytes) = c :: decodeFrom n bytes := by
  have hdecode := decodeChar_append c bytes
  obtain ⟨b, bs, hbs⟩ := List.exists_cons_of_ne_nil
    (show String.utf8EncodeChar c ++ bytes ≠ [] by simp [String.utf8EncodeChar_ne_nil])
  rw [hbs] at hdecode ⊢
  simp only [decodeFrom, hdecode]
  rw [← hbs, ← String.length_utf8EncodeChar c, List.drop_left]

theorem decodeFrom_encode (cs : List Char) (n : Nat) (hn : (encode cs).length ≤ n) :
    decodeFrom n (encode cs) = cs := by
  induction cs generalizing n with
  | nil => cases n <;> rfl
  | cons c cs ih =>
      have hpos := c.utf8Size_pos
      rw [encode_cons, List.length_append, String.length_utf8EncodeChar] at hn
      obtain ⟨n, rfl⟩ : ∃ k, n = k + 1 := ⟨n - 1, by omega⟩
      rw [encode_cons, decodeFrom_encode_append, ih n (by omega)]

@[simp] theorem decode_encode (cs : List Char) : decode (encode cs) = cs :=
  decodeFrom_encode cs _ le_rfl

theorem length_decodeFrom_le (n : Nat) (bytes : List UInt8) :
    (decodeFrom n bytes).length ≤ bytes.length := by
  induction n generalizing bytes with
  | zero => exact Nat.zero_le _
  | succ n ih =>
      cases bytes with
      | nil => exact Nat.zero_le _
      | cons b bs =>
          simp only [decodeFrom]
          split
          · rename_i c _
            have hpos := c.utf8Size_pos
            have := ih ((b :: bs).drop c.utf8Size)
            simp only [List.length_cons, List.length_drop] at this ⊢
            omega
          · have := ih bs
            simpa using this

theorem length_decode_le (bytes : List UInt8) : (decode bytes).length ≤ bytes.length :=
  length_decodeFrom_le _ bytes

theorem length_encode_le (cs : List Char) : (encode cs).length ≤ 4 * cs.length := by
  induction cs with
  | nil => simp
  | cons c cs ih =>
      have hsize : (String.utf8EncodeChar c).length ≤ 4 := by
        rw [String.length_utf8EncodeChar]
        exact c.utf8Size_le_four
      rw [encode_cons, List.length_append, List.length_cons]
      omega

/-- What is left of a text after `k` bytes has one character for each four bytes cut off less,
up to the bytes of a character that is cut. -/
theorem length_decodeFrom_take (n : Nat) {cs : List Char} {k : Nat}
    (hk : k ≤ (encode cs).length) :
    (encode cs).length + 4 * (decodeFrom n ((encode cs).take k)).length ≤
      k + 4 * cs.length + 12 := by
  induction cs generalizing n k with
  | nil =>
      obtain rfl : k = 0 := by simpa using hk
      cases n <;> simp [decodeFrom]
  | cons c cs ih =>
      have hsize := c.utf8Size_le_four
      have hpos := c.utf8Size_pos
      have hlength := length_encode_le (c :: cs)
      have hcons : (encode (c :: cs)).length = c.utf8Size + (encode cs).length := by
        rw [encode_cons, List.length_append, String.length_utf8EncodeChar]
      rw [List.length_cons] at hlength ⊢
      by_cases hwhole : c.utf8Size ≤ k
      · cases n with
        | zero =>
            simp only [decodeFrom, List.length_nil]
            omega
        | succ n =>
            have htake : (encode (c :: cs)).take k =
                String.utf8EncodeChar c ++ (encode cs).take (k - c.utf8Size) := by
              rw [encode_cons, List.take_append, String.length_utf8EncodeChar,
                List.take_of_length_le (by rw [String.length_utf8EncodeChar]; exact hwhole)]
            have hrest := ih n (k := k - c.utf8Size) (by omega)
            rw [htake, decodeFrom_encode_append, List.length_cons]
            omega
      · have hfew := length_decodeFrom_le n ((encode (c :: cs)).take k)
        have hcut : ((encode (c :: cs)).take k).length ≤ k := List.length_take_le _ _
        omega

theorem utf8EncodeChar_zero : String.utf8EncodeChar '\x00' = [0] := by decide

theorem zero_not_mem_utf8EncodeChar {c : Char} (hc : c ≠ '\x00') :
    (0 : UInt8) ∉ String.utf8EncodeChar c := by
  have hval : c.val.toNat ≠ 0 := by
    intro h
    exact hc (Char.ext (UInt32.toNat_inj.mp h))
  have hbyte : ∀ n : Nat, n % 256 ≠ 0 → (0 : UInt8) ≠ UInt8.ofNat n := by
    intro n hn h
    have := congrArg UInt8.toNat h
    simp at this
    omega
  simp only [String.utf8EncodeChar]
  split_ifs with h₁ h₂ h₃
  all_goals simp only [List.mem_cons, List.not_mem_nil, or_false, not_or]
  · exact hbyte _ (by omega)
  · exact ⟨hbyte _ (by omega), hbyte _ (by omega)⟩
  · exact ⟨hbyte _ (by omega), hbyte _ (by omega), hbyte _ (by omega)⟩
  · exact ⟨hbyte _ (by omega), hbyte _ (by omega), hbyte _ (by omega), hbyte _ (by omega)⟩

/-- A character is one byte below 128, or its first byte is 128 or above. -/
theorem utf8EncodeChar_ascii (c : Char) :
    (∃ b : UInt8, b.toNat < 128 ∧ c = Char.ofNat b.toNat ∧ String.utf8EncodeChar c = [b]) ∨
      ∃ b rest, 128 ≤ b.toNat ∧ String.utf8EncodeChar c = b :: rest := by
  have hvalid := c.val.toNat_lt
  simp only [String.utf8EncodeChar]
  split_ifs with h₁ h₂ h₃
  · have hbyte : (UInt8.ofNat c.val.toNat).toNat = c.val.toNat := by
      rw [UInt8.toNat_ofNat']
      omega
    refine .inl ⟨_, by omega, ?_, rfl⟩
    rw [hbyte]
    exact (Char.ofNat_toNat c).symm
  · refine .inr ⟨_, _, ?_, rfl⟩
    rw [UInt8.toNat_ofNat']
    omega
  · refine .inr ⟨_, _, ?_, rfl⟩
    rw [UInt8.toNat_ofNat']
    omega
  · refine .inr ⟨_, _, ?_, rfl⟩
    rw [UInt8.toNat_ofNat']
    omega

/-- ASCII bytes at the front of a text are characters of it. -/
theorem length_take_encode_le {cs : List Char} {k : Nat}
    (hascii : ∀ b ∈ (encode cs).take k, b.toNat < 128) :
    ((encode cs).take k).length ≤ cs.length := by
  induction cs generalizing k with
  | nil => simp
  | cons c cs ih =>
      cases k with
      | zero => simp
      | succ k =>
          rcases utf8EncodeChar_ascii c with ⟨b, -, -, hencode⟩ | ⟨b, rest, hhigh, hencode⟩
          · rw [encode_cons, hencode] at hascii ⊢
            have htail := ih (k := k) fun a ha => hascii a (by simp [ha])
            simpa using htail
          · have hlow := hascii b (by simp [encode_cons, hencode])
            omega

/-- The bytes C sees of a text are those of the characters before its first zero character. -/
theorem cut_encode (cs : List Char) : cut (encode cs) = encode (visible cs) := by
  induction cs with
  | nil => rfl
  | cons c cs ih =>
      by_cases hc : c = '\x00'
      · subst hc
        simp [cut, visible, utf8EncodeChar_zero]
      · have hzero := zero_not_mem_utf8EncodeChar hc
        have hkeep : ∀ b ∈ String.utf8EncodeChar c, (b != 0) = true := by
          intro b hb
          rw [bne_iff_ne]
          rintro rfl
          exact hzero hb
        rw [visible, List.takeWhile_cons_of_pos (by simpa using hc), encode_cons, encode_cons, cut,
          List.takeWhile_append_of_pos hkeep]
        exact congrArg _ ih

theorem visible_eq_self {cs : List Char} : visible cs = cs ↔ '\x00' ∉ cs := by
  rw [visible, List.takeWhile_eq_self_iff]
  constructor
  · intro h hmem
    simpa using h _ hmem
  · intro h c hc
    rw [bne_iff_ne]
    rintro rfl
    exact h hc

@[simp] theorem read_encode (cs : List Char) : read (encode cs) = String.ofList (visible cs) := by
  rw [read, cut_encode, decode_encode]

@[simp] theorem read_nil : read [] = "" := rfl

theorem visible_visible (cs : List Char) : visible (visible cs) = visible cs := by
  rw [visible_eq_self]
  intro hmem
  simpa using List.mem_takeWhile_imp hmem

end CString
