import IdrisOracle.NumberText

/-! The bytes of an Oracle number give its parts back. -/

namespace IdrisOracle

open Positional

theorem prependZero_eq (point : ℤ) : prependZero point = decide (point % 2 = 1) := by
  refine decide_eq_decide.mpr ⟨?_, fun hodd => ?_⟩
  · rintro (⟨hpos, hodd⟩ | ⟨hneg, hodd⟩)
    · rwa [Int.tmod_eq_emod_of_nonneg hpos.le] at hodd
    · have hneg' : (-point).tmod 2 = 1 := by rw [Int.neg_tmod, hodd]; rfl
      rw [Int.tmod_eq_emod_of_nonneg (by omega)] at hneg'
      omega
  · rcases lt_trichotomy point 0 with hneg | rfl | hpos
    · right
      have hneg' : (-point).tmod 2 = 1 := by
        rw [Int.tmod_eq_emod_of_nonneg (by omega)]
        omega
      rw [Int.neg_tmod] at hneg'
      exact ⟨hneg, by omega⟩
    · cases hodd
    · left
      rw [Int.tmod_eq_emod_of_nonneg hpos.le]
      exact ⟨hpos, hodd⟩

/-- Digits with a zero added when their number is odd. -/
def evened (digits : List UInt8) : List UInt8 :=
  if digits.length % 2 = 1 then digits ++ [0] else digits

def pairUp : List UInt8 → List UInt8
  | high :: low :: rest => (high * 10 + low) :: pairUp rest
  | _ => []

theorem numberPairs_append {digits : List UInt8} {n : Nat} (h : digits.length = 2 * n)
    (rest : List UInt8) : numberPairs false n (digits ++ rest) = pairUp digits := by
  induction n generalizing digits with
  | zero =>
      rw [List.length_eq_zero_iff.mp h]
      rfl
  | succ n ih =>
      rcases digits with _ | ⟨high, _ | ⟨low, digits⟩⟩
      · cases h
      · simp at h
        omega
      · rw [List.cons_append, List.cons_append, numberPairs, pairUp,
          ih (by simpa [Nat.mul_succ] using h)]

theorem length_pairUp (digits : List UInt8) : (pairUp digits).length = digits.length / 2 := by
  fun_induction pairUp digits with
  | case1 high low rest ih =>
      rw [List.length_cons, ih, List.length_cons, List.length_cons]
      omega
  | case2 digits h =>
      rcases digits with _ | ⟨high, _ | ⟨low, rest⟩⟩
      · rfl
      · simp
      · exact absurd rfl (h high low rest)

theorem length_evened (digits : List UInt8) :
    (evened digits).length = digits.length + digits.length % 2 := by
  unfold evened
  split
  · rw [List.length_append, List.length_singleton]
    omega
  · omega

/-- The digits as they are scanned: the last one is left out when it is zero. -/
def scanned (digits : List UInt8) : List UInt8 :=
  if digits.getLast? = some 0 then digits.dropLast else digits

theorem scanned_evened {digits : List UInt8} (h : digits.getLast? ≠ some 0) :
    scanned (evened digits) = digits := by
  unfold evened
  split
  · simp [scanned]
  · rw [scanned, if_neg h]

/-- What a mantissa byte is made from. -/
theorem mantissaByte_inv (isNegative : Bool) (byte : UInt8) :
    (if isNegative then 101 - mantissaByte isNegative byte
      else mantissaByte isNegative byte - 1) = byte := by
  cases isNegative with
  | true =>
      have hlt := byte.toNat_lt
      refine UInt8.toNat_inj.mp ?_
      simp only [mantissaByte, if_true, UInt8.toNat_sub, UInt8.toNat_ofNat, Nat.reducePow,
        Nat.reduceMod]
      omega
  | false => exact UInt8.add_sub_cancel byte 1

theorem toNat_digitPair {high low : UInt8} (hhigh : high < 10) (hlow : low < 10) :
    (high * 10 + low).toNat = high.toNat * 10 + low.toNat := by
  have hh : high.toNat < 10 := hhigh
  have hl : low.toNat < 10 := hlow
  simp only [UInt8.toNat_add, UInt8.toNat_mul, UInt8.toNat_ofNat, Nat.reducePow, Nat.reduceMod]
  omega

theorem pair_div {high low : UInt8} (hhigh : high < 10) (hlow : low < 10) :
    (high * 10 + low) / 10 = high ∧ (high * 10 + low) % 10 = low := by
  have hl : low.toNat < 10 := hlow
  constructor
  · refine UInt8.toNat_inj.mp ?_
    simp only [UInt8.toNat_div, toNat_digitPair hhigh hlow, UInt8.toNat_ofNat, Nat.reducePow,
      Nat.reduceMod]
    omega
  · refine UInt8.toNat_inj.mp ?_
    simp only [UInt8.toNat_mod, toNat_digitPair hhigh hlow, UInt8.toNat_ofNat, Nat.reducePow,
      Nat.reduceMod]
    omega

theorem mantissaDigits_pair {isNegative : Bool} {length i : Nat} {high low : UInt8}
    (hhigh : high < 10) (hlow : low < 10) (hfirst : i = 0 → high ≠ 0) :
    mantissaDigits isNegative length i (mantissaByte isNegative (high * 10 + low)) =
      (high :: if low = 0 ∧ i + 1 = length then [] else [low], 0) := by
  obtain ⟨hdiv, hmod⟩ := pair_div hhigh hlow
  have hten : high ≠ 10 := by
    rintro rfl
    exact absurd hhigh (by decide)
  have hskip : ¬ (high = 0 ∧ i = 0) := fun h => hfirst h.2 h.1
  simp only [mantissaDigits, mantissaByte_inv, hdiv, hmod, if_neg hskip, if_neg hten]

/-- A first byte of one digit gives that digit and moves the decimal point. -/
theorem mantissaDigits_single {isNegative : Bool} {length : Nat} {digit : UInt8}
    (hdigit : digit < 10) (hne : digit ≠ 0) :
    mantissaDigits isNegative length 0 (mantissaByte isNegative digit) = ([digit], -1) := by
  obtain ⟨hdiv, hmod⟩ := pair_div (by decide : (0 : UInt8) < 10) hdigit
  rw [show (0 : UInt8) * 10 + digit = digit by simp] at hdiv hmod
  have hlow : ¬ (digit = 0 ∧ 0 + 1 = length) := fun h => hne h.1
  simp only [mantissaDigits, mantissaByte_inv, hdiv, hmod, if_neg hlow, and_self, if_true]

theorem scanned_cons_cons (high low : UInt8) {rest : List UInt8} (hne : rest ≠ []) :
    scanned (high :: low :: rest) = high :: low :: scanned rest := by
  obtain ⟨d, rest, rfl⟩ := List.exists_cons_of_ne_nil hne
  by_cases hzero : (d :: rest).getLast? = some 0
  · rw [scanned, scanned, if_pos hzero, if_pos (by simpa using hzero)]
    rfl
  · rw [scanned, scanned, if_neg hzero, if_neg (by simpa using hzero)]

/-- The mantissa gives the digits that were put into pairs. -/
theorem scanMantissa_pairUp (isNegative : Bool) (length i : Nat) (digits : List UInt8)
    (heven : digits.length % 2 = 0) (hlt : ∀ d ∈ digits, d < 10)
    (hlength : i + digits.length / 2 = length) (hfirst : i = 0 → digits.head? ≠ some 0) :
    scanMantissa isNegative length i ((pairUp digits).map (mantissaByte isNegative)) =
      (scanned digits, 0) := by
  fun_induction pairUp digits generalizing i with
  | case1 high low rest ih =>
      rw [List.length_cons, List.length_cons] at heven hlength
      have hrest := ih (i + 1) (by omega) (fun d hd => hlt d (by simp [hd])) (by omega)
        (fun h => absurd h (Nat.succ_ne_zero i))
      have hhigh := hlt high (by simp)
      have hlow := hlt low (by simp)
      rw [List.map_cons, scanMantissa, hrest,
        mantissaDigits_pair hhigh hlow fun h hzero => hfirst h (by simp [hzero])]
      by_cases hempty : rest = []
      · subst hempty
        have hlast : i + 1 = length := by simpa using hlength
        by_cases hzero : low = 0 <;> simp [scanned, hlast, hzero]
      · have hpos := List.length_pos_of_ne_nil hempty
        have hmore : ¬ (low = 0 ∧ i + 1 = length) := by
          rintro ⟨-, hlast⟩
          omega
        rw [scanned_cons_cons high low hempty, if_neg hmore]
        rfl
  | case2 digits h =>
      rcases digits with _ | ⟨high, _ | ⟨low, rest⟩⟩
      · rfl
      · cases heven
      · exact absurd rfl (h high low rest)

theorem pairUp_lt {digits : List UInt8} (hlt : ∀ d ∈ digits, d < 10) :
    ∀ byte ∈ pairUp digits, byte < 100 := by
  fun_induction pairUp digits with
  | case1 high low rest ih =>
      intro byte hbyte
      rcases List.mem_cons.mp hbyte with rfl | hrest
      · have hhigh : high.toNat < 10 := hlt high (by simp)
        have hlow : low.toNat < 10 := hlt low (by simp)
        refine UInt8.lt_iff_toNat_lt.mpr ?_
        rw [toNat_digitPair hhigh hlow]
        change high.toNat * 10 + low.toNat < 100
        omega
      · exact ih (fun d hd => hlt d (by simp [hd])) byte hrest
  | case2 digits h =>
      intro byte hbyte
      cases hbyte

theorem evened_lt {digits : List UInt8} (hlt : ∀ d ∈ digits, d < 10) :
    ∀ d ∈ evened digits, d < 10 := by
  intro d hd
  unfold evened at hd
  split at hd
  · rcases List.mem_append.mp hd with hmem | hzero
    · exact hlt d hmem
    · rw [List.mem_singleton.mp hzero]
      decide
  · exact hlt d hd

namespace NumberParts

variable {parts : NumberParts}

theorem Normal.lt (h : parts.Normal) : ∀ d ∈ parts.digits, d < 10 := fun _ hd =>
  Positional.Normal.lt h _ (List.mem_map_of_mem hd)

theorem Normal.head (h : parts.Normal) : parts.digits.head? ≠ some 0 := by
  intro hzero
  refine Positional.Normal.head h ?_
  rw [List.head?_map, hzero]
  rfl

theorem Normal.last (h : parts.Normal) : parts.digits.getLast? ≠ some 0 := by
  intro hzero
  refine Positional.Normal.last h ?_
  rw [List.getLast?_map, hzero]
  rfl

/-- Whether a zero is put before the digits. -/
abbrev Odd (parts : NumberParts) : Prop := parts.decimalPointIndex % 2 = 1

theorem paddedDigits_even (h : ¬ parts.Odd) : paddedDigits parts = evened parts.digits := by
  simp only [paddedDigits, prependZero_eq, decide_eq_true_eq, h, false_and, if_false]
  rfl

theorem paddedDigits_odd (h : parts.Odd) {d : UInt8} {digits : List UInt8}
    (hdigits : parts.digits = d :: digits) :
    paddedDigits parts = d :: (evened digits ++ [0]) := by
  have hprepend : prependZero parts.decimalPointIndex = true ∧ parts.digits ≠ [] := by
    rw [prependZero_eq, hdigits]
    exact ⟨decide_eq_true h, List.cons_ne_nil _ _⟩
  simp only [paddedDigits, if_pos hprepend]
  simp only [hdigits, evened, List.length_append, List.length_cons, List.length_nil]
  by_cases hlength : digits.length % 2 = 1
  · rw [if_pos hlength, if_pos (by omega)]
    simp
  · rw [if_neg hlength, if_neg (by omega)]
    rfl

/-- The pairs of digits that the mantissa is made from. -/
structure Pairs (parts : NumberParts) (pairs : List UInt8) : Prop where
  eq : numberPairs (prependZero parts.decimalPointIndex) ((paddedDigits parts).length / 2)
    (paddedDigits parts) = pairs
  length : pairs.length = (paddedDigits parts).length / 2
  lt : ∀ byte ∈ pairs, byte < 100
  scan : scanMantissa parts.isNegative pairs.length 0
      (pairs.map (mantissaByte parts.isNegative)) =
    (parts.digits, if parts.Odd then -1 else 0)

theorem exists_pairs_even (hnormal : parts.Normal) (h : ¬ parts.Odd) :
    parts.Pairs (pairUp (evened parts.digits)) := by
  have heven : (evened parts.digits).length % 2 = 0 := by
    rw [length_evened]
    omega
  refine ⟨?_, ?_, pairUp_lt (evened_lt hnormal.lt), ?_⟩
  · have hprepend : prependZero parts.decimalPointIndex = false := by
      rw [prependZero_eq]
      exact decide_eq_false h
    have htwice : (evened parts.digits).length = 2 * ((evened parts.digits).length / 2) := by
      omega
    have hpairs := numberPairs_append htwice []
    rw [List.append_nil] at hpairs
    rw [paddedDigits_even h, hprepend, hpairs]
  · rw [length_pairUp, paddedDigits_even h]
  · rw [scanMantissa_pairUp _ _ 0 _ heven (evened_lt hnormal.lt) (by rw [length_pairUp]; omega)
      fun _ => ?_, scanned_evened hnormal.last, if_neg h]
    unfold evened
    split
    · cases hdigits : parts.digits with
      | nil => simp [hdigits] at *
      | cons d digits => simpa [hdigits] using hnormal.head
    · exact hnormal.head

theorem exists_pairs_odd (hnormal : parts.Normal) (h : parts.Odd) {d : UInt8}
    {digits : List UInt8} (hdigits : parts.digits = d :: digits) :
    parts.Pairs (d :: pairUp (evened digits)) := by
  have hlt : ∀ e ∈ digits, e < 10 := fun e he => hnormal.lt e (by simp [hdigits, he])
  have hd : d < 10 := hnormal.lt d (by simp [hdigits])
  have hne : d ≠ 0 := by
    rintro rfl
    exact hnormal.head (by simp [hdigits])
  have hlast : digits.getLast? ≠ some 0 := by
    intro hzero
    refine hnormal.last ?_
    rw [hdigits, List.getLast?_cons, hzero]
    rfl
  have heven : (evened digits).length % 2 = 0 := by
    rw [length_evened]
    omega
  have hcount : (paddedDigits parts).length / 2 = (evened digits).length / 2 + 1 := by
    rw [paddedDigits_odd h hdigits]
    simp
    omega
  refine ⟨?_, ?_, ?_, ?_⟩
  · have hprepend : prependZero parts.decimalPointIndex = true := by
      rw [prependZero_eq]
      exact decide_eq_true h
    have htwice : (evened digits).length = 2 * ((evened digits).length / 2) := by omega
    rw [hcount, hprepend, paddedDigits_odd h hdigits, numberPairs, numberPairs_append htwice]
  · rw [hcount, List.length_cons, length_pairUp]
  · intro byte hbyte
    rcases List.mem_cons.mp hbyte with rfl | hrest
    · exact UInt8.lt_trans hd (by decide)
    · exact pairUp_lt (evened_lt hlt) byte hrest
  · have hscan := scanMantissa_pairUp parts.isNegative (d :: pairUp (evened digits)).length 1 _
      heven (evened_lt hlt) (by rw [List.length_cons, length_pairUp]; omega)
      fun hzero => absurd hzero Nat.one_ne_zero
    rw [List.map_cons, scanMantissa, mantissaDigits_single hd hne, hscan, scanned_evened hlast,
      if_pos h, hdigits]
    rfl

theorem exists_pairs (hnormal : parts.Normal) (hne : parts.digits ≠ []) :
    ∃ pairs, parts.Pairs pairs := by
  by_cases h : parts.Odd
  · obtain ⟨d, digits, hdigits⟩ := List.exists_cons_of_ne_nil hne
    exact ⟨_, exists_pairs_odd hnormal h hdigits⟩
  · exact ⟨_, exists_pairs_even hnormal h⟩

theorem length_paddedDigits (hne : parts.digits ≠ []) :
    (paddedDigits parts).length / 2 =
      (parts.digits.length + (if parts.Odd then 1 else 0) + 1) / 2 := by
  by_cases h : parts.Odd
  · obtain ⟨d, digits, hdigits⟩ := List.exists_cons_of_ne_nil hne
    rw [paddedDigits_odd h hdigits, if_pos h, hdigits]
    simp [length_evened]
    omega
  · rw [paddedDigits_even h, if_neg h, length_evened]
    omega

theorem paddedDigits_mod_two : (paddedDigits parts).length % 2 = 0 := by
  simp only [paddedDigits]
  generalize (if prependZero parts.decimalPointIndex = true ∧ parts.digits ≠ [] then
    parts.digits ++ [0] else parts.digits) = digits
  by_cases hodd : digits.length % 2 = 1
  · rw [if_pos hodd, List.length_append, List.length_singleton]
    omega
  · rw [if_neg hodd]
    omega

/-- The position of the decimal point after a zero was put before the digits. -/
def evenPoint (parts : NumberParts) : ℤ :=
  if parts.Odd then parts.decimalPointIndex + 1 else parts.decimalPointIndex

/-- The byte that ends the mantissa of a negative number that has room for it. -/
def sentinel (parts : NumberParts) (numPairs : ℕ) : List UInt8 :=
  if parts.isNegative = true ∧ numPairs < 20 then [102] else []

theorem length_sentinel_le (numPairs : ℕ) :
    (parts.sentinel numPairs).length ≤ 1 := by
  unfold sentinel
  split <;> simp

theorem oracleNumberBytes_eq {pairs : List UInt8} (h : parts.Pairs pairs)
    (hne : parts.digits ≠ []) :
    oracleNumberBytes parts =
      UInt8.ofNat (pairs.length + 1 + (parts.sentinel pairs.length).length) ::
        exponentByte parts.isNegative parts.evenPoint ::
          (pairs.map (mantissaByte parts.isNegative) ++ parts.sentinel pairs.length) := by
  have hmod : (paddedDigits parts).length % 2 = 0 := paddedDigits_mod_two
  have hlength := h.length
  have hcount := length_paddedDigits hne
  have hdigits := List.length_pos_of_ne_nil hne
  have hpos : 0 < (paddedDigits parts).length := by omega
  have hpadded : paddedDigits parts ≠ [] := List.ne_nil_of_length_pos hpos
  have hsentinel : (parts.isNegative = true ∧ 0 < (paddedDigits parts).length ∧
      (paddedDigits parts).length < numberMaxDigits) ↔
      (parts.isNegative = true ∧ pairs.length < 20) := by
    constructor
    · rintro ⟨hsign, -, hlt⟩
      rw [numberMaxDigits] at hlt
      exact ⟨hsign, by omega⟩
    · rintro ⟨hsign, hlt⟩
      refine ⟨hsign, hpos, ?_⟩
      rw [numberMaxDigits]
      omega
  have hpoint : (if prependZero parts.decimalPointIndex = true ∧ parts.digits ≠ [] then
      parts.decimalPointIndex + 1 else parts.decimalPointIndex) = parts.evenPoint := by
    rw [prependZero_eq, evenPoint]
    simp [hne]
  have hpairs := h.eq
  rw [← hlength] at hpairs
  simp only [oracleNumberBytes, hpoint, if_neg hpadded, hsentinel, ← hlength, hpairs]
  rw [sentinel]
  by_cases hs : parts.isNegative = true ∧ pairs.length < 20
  · simp [hs]
  · simp [if_neg hs]

theorem length_oracleNumberBytes {pairs : List UInt8} (h : parts.Pairs pairs)
    (hne : parts.digits ≠ []) : (oracleNumberBytes parts).length =
      2 + pairs.length + (parts.sentinel pairs.length).length := by
  rw [oracleNumberBytes_eq h hne, List.length_cons, List.length_cons, List.length_append,
    List.length_map]
  omega

/-- The exponent byte gives the sign and the position of the decimal point back. -/
theorem exponentByte_inv : ∀ (isNegative : Bool) (k : Fin 128),
    let exponent := exponentByte isNegative (2 * (k.val : ℤ) - 128)
    decide (exponent &&& 0x80 = 0) = isNegative ∧
      ((if isNegative then ~~~exponent.toInt8 else exponent.toInt8) - 193).toInt * 2 + 2 =
        2 * (k.val : ℤ) - 128 := by
  decide +kernel

theorem dropSentinel_append {pairs : List UInt8} (hlt : ∀ byte ∈ pairs, byte < 100) :
    dropSentinel parts.isNegative
      (pairs.map (mantissaByte parts.isNegative) ++ parts.sentinel pairs.length) =
      pairs.map (mantissaByte parts.isNegative) := by
  unfold dropSentinel sentinel
  cases hsign : parts.isNegative with
  | false => simp
  | true =>
      by_cases hroom : pairs.length < 20
      · simp [hroom]
      · have hlast : (pairs.map (mantissaByte true)).getLast? ≠ some 102 := by
          intro hlast
          obtain ⟨byte, hbyte, hsum⟩ := List.mem_map.mp (List.mem_of_getLast? hlast)
          have hinv := mantissaByte_inv true byte
          rw [hsum] at hinv
          rw [← hinv] at hbyte
          exact absurd (hlt _ hbyte) (by decide)
        have hnone : ¬ (true = true ∧ pairs.length < 20) := fun h => hroom h.2
        rw [if_neg hnone, List.append_nil, if_neg (fun h => hlast h.2)]

theorem evenPoint_eq (hrange : parts.InRange) :
    ∃ k : Fin 128, parts.evenPoint = 2 * (k.val : ℤ) - 128 := by
  obtain ⟨-, hhigh, hlow⟩ := hrange
  have heven : parts.evenPoint % 2 = 0 ∧ -128 ≤ parts.evenPoint ∧ parts.evenPoint ≤ 126 := by
    unfold evenPoint
    split <;> omega
  exact ⟨⟨((parts.evenPoint + 128) / 2).toNat, by omega⟩, by
    simp only
    omega⟩

theorem toNat_lengthByte {n : ℕ} (h : n < 255) : (UInt8.ofNat (n + 1) - 1).toNat = n := by
  simp only [UInt8.toNat_sub, UInt8.toNat_ofNat, UInt8.toNat_ofNat', Nat.reducePow, Nat.reduceMod]
  omega

theorem Pairs.length_pos {pairs : List UInt8} (h : parts.Pairs pairs) (hne : parts.digits ≠ []) :
    0 < pairs.length := by
  have hdigits := List.length_pos_of_ne_nil hne
  rw [h.length, length_paddedDigits hne]
  omega

theorem Pairs.length_le {pairs : List UInt8} (h : parts.Pairs pairs) (hne : parts.digits ≠ [])
    (hrange : parts.InRange) : pairs.length ≤ 21 := by
  have hdigits : parts.digits.length ≤ 40 := hrange.1
  rw [h.length, length_paddedDigits hne]
  split <;> omega

theorem room_for_sentinel {n : ℕ} (h : n ≤ 20) : n + (parts.sentinel n).length ≤ 20 := by
  unfold sentinel
  split
  · rw [List.length_singleton]
    omega
  · exact h

/-- What is read back of the bytes of a number that is not zero. -/
theorem parse_oracleNumberBytes {pairs : List UInt8} (h : parts.Pairs pairs)
    (hrange : parts.InRange) (hne : parts.digits ≠ []) :
    dpiUtilsParseOracleNumber
      (UInt8.ofNat (pairs.length + 1 + (parts.sentinel pairs.length).length))
      (exponentByte parts.isNegative parts.evenPoint)
      (pairs.map (mantissaByte parts.isNegative) ++ parts.sentinel pairs.length) =
    if pairs.length ≤ 20 then .ok parts else .error .invalidOciNumber := by
  have hpos := h.length_pos hne
  have hle := h.length_le hne hrange
  have hsentinel := parts.length_sentinel_le pairs.length
  obtain ⟨k, hk⟩ := evenPoint_eq hrange
  obtain ⟨hsign, hpoint⟩ := exponentByte_inv parts.isNegative k
  rw [← hk] at hsign hpoint
  have hlength : (UInt8.ofNat (pairs.length + 1 + (parts.sentinel pairs.length).length) - 1).toNat =
      pairs.length + (parts.sentinel pairs.length).length := by
    rw [Nat.add_right_comm]
    exact toNat_lengthByte (by omega)
  have htake : (pairs.map (mantissaByte parts.isNegative) ++ parts.sentinel pairs.length).take
      (pairs.length + (parts.sentinel pairs.length).length) =
      pairs.map (mantissaByte parts.isNegative) ++ parts.sentinel pairs.length :=
    List.take_of_length_le (by simp)
  simp only [dpiUtilsParseOracleNumber, hlength, hsign, hpoint, htake,
    dropSentinel_append h.lt, List.length_map, h.scan]
  by_cases hroom : pairs.length ≤ 20
  · have hfits := parts.room_for_sentinel hroom
    rw [if_neg (by omega), if_neg (by omega), if_pos hroom]
    have hback : parts.evenPoint + (if parts.Odd then -1 else 0) = parts.decimalPointIndex := by
      unfold evenPoint
      split <;> omega
    rw [hback]
  · rw [if_pos (by omega), if_neg hroom]

end NumberParts

/-- A number of forty digits needs a twenty-first pair when a zero is put before them. -/
def NumberParts.Overlong (parts : NumberParts) : Prop :=
  parts.digits.length = numberMaxDigits ∧ parts.Odd

instance (parts : NumberParts) : Decidable parts.Overlong :=
  inferInstanceAs (Decidable (_ ∧ _))

theorem NumberParts.Pairs.length_le_iff {parts : NumberParts} {pairs : List UInt8}
    (h : parts.Pairs pairs) (hne : parts.digits ≠ []) (hrange : parts.InRange) :
    pairs.length ≤ 20 ↔ ¬ parts.Overlong := by
  have hdigits : parts.digits.length ≤ 40 := hrange.1
  rw [h.length, length_paddedDigits hne, Overlong, numberMaxDigits]
  by_cases hodd : parts.Odd
  · rw [if_pos hodd]
    omega
  · rw [if_neg hodd]
    exact ⟨fun _ hlong => hodd hlong.2, fun _ => by omega⟩

theorem oracleNumberBytes_zero {parts : NumberParts} (h : parts.digits = []) :
    oracleNumberBytes parts = [1, 128] := by
  have hpadded : paddedDigits parts = [] := by
    simp [paddedDigits, h]
  simp [oracleNumberBytes, hpadded]

theorem accepted {text : List UInt8} {parts : NumberParts}
    (h : dpiUtilsParseNumberString text = .ok parts) : parts.Normal ∧ parts.InRange := by
  obtain ⟨-, -, n, -, rfl, hrange⟩ := (parse_number_eq_ok_iff _ _).mp h
  exact ⟨n.normal_parts, hrange⟩

theorem toOracleNumberFromText_eq {text : List UInt8} {parts : NumberParts}
    (h : dpiUtilsParseNumberString text = .ok parts) :
    toOracleNumberFromText text = .ok (oracleNumberBytes parts) :=
  parses_bind.mpr ⟨parts, h, rfl⟩

/-- What is read back of the bytes of a number. -/
theorem read_back {parts : NumberParts} (hnormal : parts.Normal) (hrange : parts.InRange) :
    ∃ length exponent source, oracleNumberBytes parts = length :: exponent :: source ∧
      dpiUtilsParseOracleNumber length exponent source =
        if parts.Overlong then .error .invalidOciNumber
        else if parts.digits = [] then .ok ⟨false, 1, [0]⟩ else .ok parts := by
  by_cases hempty : parts.digits = []
  · have hshort : ¬ parts.Overlong := by
      rintro ⟨hlength, -⟩
      rw [hempty] at hlength
      cases hlength
    refine ⟨1, 128, [], oracleNumberBytes_zero hempty, ?_⟩
    rw [if_neg hshort, if_pos hempty]
    rfl
  · obtain ⟨pairs, hpairs⟩ := NumberParts.exists_pairs hnormal hempty
    have hroom := hpairs.length_le_iff hempty hrange
    refine ⟨_, _, _, NumberParts.oracleNumberBytes_eq hpairs hempty, ?_⟩
    rw [NumberParts.parse_oracleNumberBytes hpairs hrange hempty, if_neg hempty]
    by_cases hlong : parts.Overlong
    · rw [if_pos hlong, if_neg (fun hle => hroom.mp hle hlong)]
    · rw [if_neg hlong, if_pos (hroom.mpr hlong)]

/-- There are as many bytes as an Oracle number has, or one too many. -/
theorem oracleNumberBytes_fits_iff {parts : NumberParts} (hnormal : parts.Normal)
    (hrange : parts.InRange) :
    (oracleNumberBytes parts).length ≤ ociNumberSize ↔ ¬ parts.Overlong := by
  by_cases hempty : parts.digits = []
  · rw [oracleNumberBytes_zero hempty]
    refine iff_of_true (by decide) ?_
    rintro ⟨hlength, -⟩
    rw [hempty] at hlength
    cases hlength
  · obtain ⟨pairs, hpairs⟩ := NumberParts.exists_pairs hnormal hempty
    have hsentinel := parts.length_sentinel_le pairs.length
    rw [NumberParts.length_oracleNumberBytes hpairs hempty, ociNumberSize,
      ← hpairs.length_le_iff hempty hrange]
    constructor
    · intro hfits
      omega
    · intro hle
      have hfits := parts.room_for_sentinel hle
      omega

/-- The bytes that a text is turned into are twenty-two at most, unless the number has forty digits
and an odd exponent; and what is read back of them is the number, unless there are too many. -/
theorem number_bytes_read_back {text : List UInt8} {parts : NumberParts}
    (h : dpiUtilsParseNumberString text = .ok parts) :
    ∃ length exponent source,
      toOracleNumberFromText text = .ok (length :: exponent :: source) ∧
      ((length :: exponent :: source).length ≤ ociNumberSize ↔ ¬ parts.Overlong) ∧
      dpiUtilsParseOracleNumber length exponent source =
        if parts.Overlong then .error .invalidOciNumber
        else if parts.digits = [] then .ok ⟨false, 1, [0]⟩ else .ok parts := by
  obtain ⟨hnormal, hrange⟩ := accepted h
  obtain ⟨length, exponent, source, hbytes, hread⟩ := read_back hnormal hrange
  refine ⟨length, exponent, source, ?_, ?_, hread⟩
  · rw [toOracleNumberFromText_eq h, hbytes]
  · rw [← hbytes]
    exact oracleNumberBytes_fits_iff hnormal hrange

theorem number_bytes_read_back_overlong :
    ∃ length exponent source,
      toOracleNumberFromText (List.replicate 39 49 ++ [46, 49]) =
        .ok (length :: exponent :: source) ∧
      ¬ (length :: exponent :: source).length ≤ ociNumberSize ∧
      dpiUtilsParseOracleNumber length exponent source = .error .invalidOciNumber := by
  have hparse : dpiUtilsParseNumberString (List.replicate 39 49 ++ [46, 49]) =
      .ok ⟨false, 39, List.replicate 40 1⟩ := rfl
  have hlong : NumberParts.Overlong ⟨false, 39, List.replicate 40 1⟩ := by decide
  obtain ⟨length, exponent, source, hbytes, hfits, hread⟩ := number_bytes_read_back hparse
  rw [if_pos hlong] at hread
  exact ⟨length, exponent, source, hbytes, fun hle => hfits.mp hle hlong, hread⟩

end IdrisOracle
