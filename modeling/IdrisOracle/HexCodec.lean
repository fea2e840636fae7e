import IdrisOracle.Hex

/-! What the Idris reader accepts and how the two directions of the Idris codec fit together. -/

namespace IdrisOracle

section Digits

variable {c : Char} {value : UInt8}

/-- The digits the writer uses. -/
def upperDigits : List Char := "0123456789ABCDEF".toList

/-- The digits the reader accepts. -/
def eitherDigits : List Char := upperDigits ++ "abcdef".toList

/-- Hexadecimal digits are ASCII and no control characters. -/
theorem range_of_hexValue (h : hexValue c = some value) :
    16 ≤ c.toNat ∧ c.toNat < 128 ∧ value.toNat < 16 := by
  unfold hexValue at h
  split at h <;> cases h <;> decide

/-- The writer's digit for the value of a digit is its upper case. -/
theorem hexDigit_of_hexValue (h : hexValue c = some value) : hexDigit value = c.toUpper := by
  unfold hexValue at h
  split at h <;> cases h <;> decide

theorem mem_eitherDigits_of_hexValue (h : hexValue c = some value) : c ∈ eitherDigits := by
  unfold hexValue at h
  split at h <;> cases h <;> decide

theorem hexValue_of_mem_eitherDigits (h : c ∈ eitherDigits) : ∃ value, hexValue c = some value := by
  have hall : eitherDigits.all (fun d => (hexValue d).isSome) = true := by decide
  exact Option.isSome_iff_exists.mp (List.all_eq_true.mp hall c h)

theorem hexDigit_mem_upperDigits (n : UInt8) : hexDigit n ∈ upperDigits := by
  unfold hexDigit
  split <;> decide

end Digits

section Pairs

variable {high low : UInt8}

theorem toNat_pair (hlow : low.toNat < 16) (hhigh : high.toNat < 16) :
    (high <<< 4 ||| low).toNat = high.toNat * 16 + low.toNat := by
  have hshift : high.toNat <<< 4 % 2 ^ 8 = high.toNat <<< 4 := by
    rw [Nat.shiftLeft_eq]
    omega
  simp only [UInt8.toNat_or, UInt8.toNat_shiftLeft]
  change high.toNat <<< 4 % 2 ^ 8 ||| low.toNat = _
  rw [hshift, ← Nat.shiftLeft_add_eq_or_of_lt (show low.toNat < 2 ^ 4 from hlow),
    Nat.shiftLeft_eq]

/-- The upper nibble of a pair is its first value. -/
theorem pair_high (hlow : low.toNat < 16) (hhigh : high.toNat < 16) :
    (high <<< 4 ||| low) >>> 4 = high := by
  apply UInt8.toNat_inj.mp
  rw [UInt8.toNat_shiftRight, toNat_pair hlow hhigh, Nat.shiftRight_eq_div_pow]
  change (high.toNat * 16 + low.toNat) / 2 ^ 4 = high.toNat
  omega

/-- The lower nibble of a pair is its second value. -/
theorem pair_low (hlow : low.toNat < 16) (hhigh : high.toNat < 16) :
    (high <<< 4 ||| low) &&& 0x0F = low := by
  have hmask : (high.toNat * 16 + low.toNat) &&& 15 = (high.toNat * 16 + low.toNat) % 2 ^ 4 :=
    Nat.and_two_pow_sub_one_eq_mod _ 4
  apply UInt8.toNat_inj.mp
  rw [UInt8.toNat_and, toNat_pair hlow hhigh]
  change (high.toNat * 16 + low.toNat) &&& 15 = low.toNat
  omega

/-- Writing the byte of two digits gives the digits in upper case. -/
theorem hexByte_of_hexPair {hi lo : Char} {byte : UInt8} (h : hexPair hi lo = some byte) :
    hexByte byte = [hi.toUpper, lo.toUpper] := by
  simp only [hexPair, Option.bind_eq_bind, Option.bind_eq_some_iff] at h
  obtain ⟨high, hhigh, low, hlow, hbyte⟩ := h
  cases hbyte
  have hhigh' := (range_of_hexValue hhigh).2.2
  have hlow' := (range_of_hexValue hlow).2.2
  rw [hexByte, pair_high hlow' hhigh', pair_low hlow' hhigh', hexDigit_of_hexValue hhigh,
    hexDigit_of_hexValue hlow]

end Pairs

section Reading

variable {cs : List Char} {bytes : List UInt8}

theorem length_hexDecode_go (h : hexDecode.go cs = some bytes) : cs.length = 2 * bytes.length := by
  induction cs using hexDecode.go.induct generalizing bytes with
  | case1 =>
      cases h
      rfl
  | case2 hi lo rest ih =>
      simp only [hexDecode.go, Option.bind_eq_bind, Option.bind_eq_some_iff] at h
      obtain ⟨byte, -, bytes', hrest, hbytes⟩ := h
      cases hbytes
      simp [ih hrest, Nat.mul_add]
  | case3 c => simp [hexDecode.go] at h

theorem hexValue_of_hexDecode_go (h : hexDecode.go cs = some bytes) :
    ∀ c ∈ cs, ∃ value, hexValue c = some value := by
  induction cs using hexDecode.go.induct generalizing bytes with
  | case1 => simp
  | case2 hi lo rest ih =>
      simp only [hexDecode.go, hexPair, Option.bind_eq_bind, Option.bind_eq_some_iff] at h
      obtain ⟨byte, ⟨high, hhigh, low, hlow, -⟩, bytes', hrest, -⟩ := h
      intro c hc
      rcases List.mem_cons.mp hc with rfl | hc
      · exact ⟨high, hhigh⟩
      · rcases List.mem_cons.mp hc with rfl | hc
        · exact ⟨low, hlow⟩
        · exact ih hrest c hc
  | case3 c => simp [hexDecode.go] at h

/-- Every text of an even number of digits is read. -/
theorem hexDecode_go_of_digits (heven : cs.length % 2 = 0) (hdigits : ∀ c ∈ cs, c ∈ eitherDigits) :
    ∃ bytes, hexDecode.go cs = some bytes := by
  induction cs using hexDecode.go.induct with
  | case1 => exact ⟨[], rfl⟩
  | case2 hi lo rest ih =>
      simp only [List.length_cons] at heven
      obtain ⟨high, hhigh⟩ := hexValue_of_mem_eitherDigits (hdigits hi (by simp))
      obtain ⟨low, hlow⟩ := hexValue_of_mem_eitherDigits (hdigits lo (by simp))
      obtain ⟨bytes, hrest⟩ := ih (by omega) fun c hc => hdigits c (by simp [hc])
      have hpair : hexPair hi lo = some (high <<< 4 ||| low) := by simp [hexPair, hhigh, hlow]
      exact ⟨(high <<< 4 ||| low) :: bytes, by simp [hexDecode.go, hpair, hrest]⟩
  | case3 c => simp at heven

/-- What is read is written as the same digits in upper case. -/
theorem hexBytes_of_hexDecode_go (h : hexDecode.go cs = some bytes) :
    bytes.flatMap hexByte = cs.map Char.toUpper := by
  induction cs using hexDecode.go.induct generalizing bytes with
  | case1 =>
      cases h
      rfl
  | case2 hi lo rest ih =>
      simp only [hexDecode.go, Option.bind_eq_bind, Option.bind_eq_some_iff] at h
      obtain ⟨byte, hbyte, bytes', hrest, hbytes⟩ := h
      cases hbytes
      rw [List.flatMap_cons, hexByte_of_hexPair hbyte, ih hrest]
      rfl
  | case3 c => simp [hexDecode.go] at h

end Reading

section Codec

variable {bytes : List UInt8} {str : String}

theorem length_hexEncode : (hexEncode bytes).length = 2 * bytes.length := by
  have hdecode : hexDecode.go (hexEncode bytes).toList = some bytes := hexDecode_hexEncode bytes
  rw [← String.length_toList]
  exact length_hexDecode_go hdecode

theorem mem_upperDigits_of_mem_hexEncode {c : Char} (h : c ∈ (hexEncode bytes).toList) :
    c ∈ upperDigits := by
  rw [hexEncode, String.toList_ofList, List.mem_flatMap] at h
  obtain ⟨byte, -, hc⟩ := h
  rcases List.mem_pair.mp hc with rfl | rfl
  · exact hexDigit_mem_upperDigits _
  · exact hexDigit_mem_upperDigits _

theorem isSome_hexDecode_iff :
    (hexDecode str).isSome ↔ str.length % 2 = 0 ∧ ∀ c ∈ str.toList, c ∈ eitherDigits := by
  rw [Option.isSome_iff_exists, ← String.length_toList]
  constructor
  · rintro ⟨bytes, h⟩
    have hlength := length_hexDecode_go h
    refine ⟨by omega, fun c hc => ?_⟩
    obtain ⟨value, hvalue⟩ := hexValue_of_hexDecode_go h c hc
    exact mem_eitherDigits_of_hexValue hvalue
  · rintro ⟨heven, hdigits⟩
    exact hexDecode_go_of_digits heven hdigits

theorem hexEncode_of_hexDecode (h : hexDecode str = some bytes) :
    hexEncode bytes = str.toUpper := by
  have hbytes : bytes.flatMap hexByte = str.toUpper.toList := by
    rw [hexBytes_of_hexDecode_go h]
    exact String.toList_map.symm
  rw [hexEncode, hbytes, String.ofList_toList]

/-- The reader undoes the writer, accepts every even number of digits and nothing else, and what
it accepts is written again in upper case. -/
theorem hexCodec_exact :
    (∀ bytes, hexDecode (hexEncode bytes) = some bytes ∧
        (hexEncode bytes).length = 2 * bytes.length ∧
        ∀ c ∈ (hexEncode bytes).toList, c ∈ upperDigits) ∧
      (∀ str, (hexDecode str).isSome ↔
        str.length % 2 = 0 ∧ ∀ c ∈ str.toList, c ∈ eitherDigits) ∧
      ∀ str bytes, hexDecode str = some bytes → hexEncode bytes = str.toUpper :=
  ⟨fun bytes => ⟨hexDecode_hexEncode bytes, length_hexEncode,
      fun _ => mem_upperDigits_of_mem_hexEncode⟩,
    fun _ => isSome_hexDecode_iff, fun _ _ => hexEncode_of_hexDecode⟩

theorem hexCodec_exact_mixed : hexEncode [0xAB] = "aB".toUpper :=
  hexCodec_exact.2.2 "aB" [0xAB] (by decide)

end Codec

end IdrisOracle
