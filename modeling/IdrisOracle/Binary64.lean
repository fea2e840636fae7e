import Mathlib

/-! Integers in IEEE binary64: conversion to a double, truncation back, and what survives both. -/

namespace Binary64

open Float.Model Float.Model.UnpackedFloat

/-- The double nearest to an integer, ties to the even significand. -/
def ofInt (n : Int) : Float := .ofModel (.ofInt n)

/-- The integer part of a double; an infinity or a NaN has none and is sent to zero. -/
def truncate (d : Float) : Int := d.toModel.unpack.toInt 0 0

/-- An integer that fits the 53-bit significand of a double. -/
def Representable (n : Int) : Prop := ∃ (m : Int) (k : Nat), m.natAbs < 2 ^ 53 ∧ n = m * 2 ^ k

theorem repeat_mantissa (em : ExtendedMantissa) (k : Nat) :
    (em >>> k).mantissa = em.mantissa / 2 ^ k := by
  change (k.repeat ExtendedMantissa.shiftRightOne em).mantissa = _
  induction k with
  | zero => simp [Nat.repeat]
  | succ k ih =>
      simp only [Nat.repeat, ExtendedMantissa.shiftRightOne, ih]
      rw [Nat.div_div_eq_div_mul, pow_succ]

theorem repeat_exact (m : Nat) (k : Nat) (hdvd : 2 ^ k ∣ m) :
    (⟨m, false, false⟩ : ExtendedMantissa) >>> k = ⟨m / 2 ^ k, false, false⟩ := by
  change k.repeat ExtendedMantissa.shiftRightOne _ = _
  induction k with
  | zero => simp [Nat.repeat]
  | succ k ih =>
      have hk : 2 ^ k ∣ m := (pow_dvd_pow 2 (Nat.le_succ k)).trans hdvd
      have heven : m / 2 ^ k % 2 = 0 := by
        obtain ⟨c, rfl⟩ := hdvd
        rw [pow_succ, mul_assoc, Nat.mul_div_cancel_left _ (by positivity)]
        omega
      rw [Nat.repeat, ih hk]
      simp [ExtendedMantissa.shiftRightOne, heven, Nat.div_div_eq_div_mul, pow_succ]

theorem roundedMantissa_le (em : ExtendedMantissa) :
    em.mantissa ≤ em.roundedMantissa ∧ em.roundedMantissa ≤ em.mantissa + 1 := by
  unfold ExtendedMantissa.roundedMantissa
  generalize em.accuracy = accuracy
  cases accuracy with
  | exact => exact ⟨le_rfl, Nat.le_succ _⟩
  | inexact half =>
      cases half with
      | lt => exact ⟨le_rfl, Nat.le_succ _⟩
      | gt => exact ⟨Nat.le_succ _, le_rfl⟩
      | eq =>
          have hparity : em.mantissa % 2 < 2 := Nat.mod_lt _ (by decide)
          simp only [Accuracy.roundToNearestEven]
          omega

theorem roundedMantissa_exact (m : Nat) :
    (⟨m, false, false⟩ : ExtendedMantissa).roundedMantissa = m := rfl

/-- The exponent binary64 gives a positive number below the overflow threshold. -/
theorem targetExponent_eq (t : Int) (ht : 0 ≤ t) :
    Format.binary64.targetExponent t = t - 53 := by
  have hbits : (Format.binary64.mantissaBits : Int) = 53 := rfl
  have hmin : Format.binary64.minExponent = -1074 := rfl
  rw [Format.targetExponent, hbits, hmin]
  omega

/-- A positive float whose value is the integer `r`, with a full 53-bit significand. -/
structure IntegerForm (r m : Nat) (e : Int) : Prop where
  lower : 2 ^ 52 ≤ m
  upper : m < 2 ^ 53
  exponent : -52 ≤ e ∧ e ≤ 11
  value : m * 2 ^ (e + 52).toNat = r * 2 ^ 52

theorem shift_none (m : Nat) (e : Int) (hlog : m.log2 = 52) (he : -52 ≤ e) :
    shiftToTargetExponent Format.binary64 m e .exact = (⟨m, false, false⟩, e) := by
  have htarget : Format.binary64.targetExponent (totalExponent m e) = e := by
    rw [totalExponent, hlog, targetExponent_eq _ (by omega)]
    omega
  simp only [shiftToTargetExponent, htarget, shiftToExponent, Int.sub_self]
  simp [ExtendedMantissa.ofMantissaAndAccuracy, HShiftRight.hShiftRight, Nat.repeat]

theorem shift_carry (k : Nat) :
    shiftToTargetExponent Format.binary64 (2 ^ 53) k .exact =
      (⟨2 ^ 52, false, false⟩, (k : Int) + 1) := by
  have htarget : Format.binary64.targetExponent (totalExponent (2 ^ 53) k) = k + 1 := by
    rw [totalExponent, Nat.log2_two_pow, targetExponent_eq _ (by omega)]
    omega
  have hone : ((k : Int) + 1 - k).toNat = 1 := by omega
  simp only [shiftToTargetExponent, htarget, shiftToExponent, hone]
  exact Prod.ext (repeat_exact (2 ^ 53) 1 (by decide)) rfl

theorem log2_eq (m k : Nat) (hlower : 2 ^ k ≤ m) (hupper : m < 2 ^ (k + 1)) : m.log2 = k := by
  have hm : m ≠ 0 := by
    have : 0 < 2 ^ k := by positivity
    omega
  rw [Nat.log2_eq_iff hm]
  exact ⟨hlower, hupper⟩

theorem Representable.dvd {n k : Nat} (h : Representable n) (hlower : 2 ^ (52 + k) ≤ n) :
    2 ^ k ∣ n := by
  obtain ⟨m, j, hm, hn⟩ := h
  have habs : n = m.natAbs * 2 ^ j := by
    have := congrArg Int.natAbs hn
    simpa [Int.natAbs_mul, Int.natAbs_pow] using this
  have hkj : k ≤ j := by
    by_contra hlt
    have hle : 2 ^ (53 + j) ≤ 2 ^ (52 + k) := Nat.pow_le_pow_right (by decide) (by omega)
    have hupper : n < 2 ^ (53 + j) := by
      rw [habs, pow_add]
      exact Nat.mul_lt_mul_of_pos_right hm (by positivity)
    omega
  rw [habs]
  exact Dvd.dvd.mul_left (pow_dvd_pow 2 hkj) _

theorem roundWithAccuracy_full (s : Sign) (m : Nat) (e : Int) (hm : 0 < m) (hlog : m.log2 = 52)
    (he : -52 ≤ e) :
    roundWithAccuracy Format.binary64 s m e .exact = .finite s m e hm := by
  simp only [roundWithAccuracy, shift_none m e hlog he, roundedMantissa_exact]
  exact dif_neg (by omega)

theorem round_small (s : Sign) (n : Nat) (hn : 0 < n) (hlog : n.log2 ≤ 52) :
    ∃ h, round Format.binary64 s n 0 = .finite s (n * 2 ^ (52 - n.log2)) (n.log2 - 52) h := by
  have htarget : Format.binary64.targetExponent (totalExponent n 0) = (n.log2 : Int) - 52 := by
    rw [totalExponent, targetExponent_eq _ (by omega)]
    omega
  have hshift : (0 - ((n.log2 : Int) - 52)).toNat = 52 - n.log2 := by omega
  have hexponent : (0 : Int) - ((52 - n.log2 : Nat) : Int) = n.log2 - 52 := by omega
  have hlower : 2 ^ n.log2 ≤ n := Nat.log2_self_le (by omega)
  have hupper : n < 2 ^ (n.log2 + 1) := Nat.lt_log2_self
  have hsplit : 2 ^ 52 = 2 ^ n.log2 * 2 ^ (52 - n.log2) := by
    rw [← pow_add]
    congr 1
    omega
  have hmantissa : (n * 2 ^ (52 - n.log2)).log2 = 52 := by
    apply log2_eq
    · rw [hsplit]
      exact Nat.mul_le_mul_right _ hlower
    · rw [pow_succ, hsplit, mul_right_comm, ← pow_succ]
      exact Nat.mul_lt_mul_of_pos_right hupper (by positivity)
  have hpos : 0 < n * 2 ^ (52 - n.log2) := by positivity
  refine ⟨hpos, ?_⟩
  simp only [UnpackedFloat.round, htarget, decreaseExponent, hshift, Nat.shiftLeft_eq, hexponent]
  exact roundWithAccuracy_full s _ _ hpos hmantissa (by omega)

theorem round_large (s : Sign) (n k : Nat) (hn : 0 < n) (hlog : n.log2 = 52 + k) :
    ∃ r m e h, round Format.binary64 s n 0 = .finite s m e h ∧
      2 ^ 52 ≤ m ∧ m < 2 ^ 53 ∧ n / 2 ^ k ≤ r ∧ r ≤ n / 2 ^ k + 1 ∧ (2 ^ k ∣ n → r = n / 2 ^ k) ∧
      ((m = r ∧ e = k) ∨ (r = 2 ^ 53 ∧ m = 2 ^ 52 ∧ e = k + 1)) := by
  have htarget : Format.binary64.targetExponent (totalExponent n 0) = k := by
    rw [totalExponent, hlog, targetExponent_eq _ (by omega)]
    omega
  have hlower : 2 ^ (52 + k) ≤ n := hlog ▸ Nat.log2_self_le (by omega)
  have hupper : n < 2 ^ (53 + k) := by
    have := @Nat.lt_log2_self n
    rwa [hlog, show 52 + k + 1 = 53 + k by omega] at this
  have hq₁ : 2 ^ 52 ≤ n / 2 ^ k := by
    rw [Nat.le_div_iff_mul_le (by positivity), ← pow_add]
    exact hlower
  have hq₂ : n / 2 ^ k < 2 ^ 53 := by
    rw [Nat.div_lt_iff_lt_mul (by positivity), ← pow_add]
    exact hupper
  let em : ExtendedMantissa := (⟨n, false, false⟩ : ExtendedMantissa) >>> k
  have hem : em.mantissa = n / 2 ^ k := repeat_mantissa _ k
  have hr := roundedMantissa_le em
  rw [hem] at hr
  have hdvd : 2 ^ k ∣ n → em.roundedMantissa = n / 2 ^ k := by
    intro h
    rw [show em = _ from repeat_exact n k h, roundedMantissa_exact]
  have hfirst : shiftToTargetExponent Format.binary64 n 0 .exact = (em, (k : Int)) := by
    simp [shiftToTargetExponent, htarget, shiftToExponent,
      ExtendedMantissa.ofMantissaAndAccuracy, em]
  have hnone : (0 - (k : Int)).toNat = 0 := by omega
  have hround : round Format.binary64 s n 0 =
      roundWithAccuracy Format.binary64 s n 0 .exact := by
    simp only [UnpackedFloat.round, htarget, decreaseExponent, hnone, Nat.shiftLeft_zero]
    rfl
  by_cases hfull : em.roundedMantissa < 2 ^ 53
  · have hlog' := log2_eq em.roundedMantissa 52 (by omega) hfull
    refine ⟨em.roundedMantissa, em.roundedMantissa, k, by omega, ?_, by omega, hfull, hr.1, hr.2,
      hdvd, .inl ⟨rfl, rfl⟩⟩
    simp only [hround, roundWithAccuracy, hfirst, shift_none _ _ hlog' (by omega : -52 ≤ (k : Int))]
    exact dif_neg (by omega)
  · have hcarry : em.roundedMantissa = 2 ^ 53 := by omega
    refine ⟨em.roundedMantissa, 2 ^ 52, k + 1, by decide, ?_, le_rfl, by decide, hr.1, hr.2, hdvd,
      .inr ⟨hcarry, rfl, rfl⟩⟩
    simp only [hround, roundWithAccuracy, hfirst, hcarry, shift_carry k]
    exact dif_neg (by decide)

theorem round_le (n k r : Nat) (hle : n ≤ 2 ^ 63) (hlower : 2 ^ (52 + k) ≤ n)
    (hr : r ≤ n / 2 ^ k + 1) (hdvd : 2 ^ k ∣ n → r = n / 2 ^ k) : r * 2 ^ k ≤ 2 ^ 63 := by
  have hk : k ≤ 11 := by
    by_contra hlt
    have : 2 ^ 64 ≤ 2 ^ (52 + k) := Nat.pow_le_pow_right (by decide) (by omega)
    omega
  have hpow : 2 ^ k ∣ 2 ^ 63 := pow_dvd_pow 2 (by omega)
  rcases hle.eq_or_lt with rfl | hlt
  · rw [hdvd hpow, Nat.div_mul_cancel hpow]
  · have hq : n / 2 ^ k < 2 ^ 63 / 2 ^ k := Nat.div_lt_div_of_lt_of_dvd hpow hlt
    calc r * 2 ^ k ≤ 2 ^ 63 / 2 ^ k * 2 ^ k := Nat.mul_le_mul_right _ (by omega)
      _ = 2 ^ 63 := Nat.div_mul_cancel hpow

/-- Rounding a positive integer of at most 64 bits keeps it an integer, exactly if it fits. -/
theorem round_integer (s : Sign) (n : Nat) (hn : 0 < n) (hle : n ≤ 2 ^ 63) :
    ∃ r m e h, round Format.binary64 s n 0 = .finite s m e h ∧ IntegerForm r m e ∧
      r ≤ 2 ^ 63 ∧ (Representable n → r = n) := by
  by_cases hsmall : n.log2 ≤ 52
  · obtain ⟨h, hround⟩ := round_small s n hn hsmall
    have hlower : 2 ^ n.log2 ≤ n := Nat.log2_self_le (by omega)
    have hupper : n < 2 ^ (n.log2 + 1) := Nat.lt_log2_self
    have hsplit : 2 ^ n.log2 * 2 ^ (52 - n.log2) = 2 ^ 52 := by
      rw [← pow_add]
      congr 1
      omega
    refine ⟨n, _, _, h, hround, ⟨?_, ?_, by omega, ?_⟩, hle, fun _ => rfl⟩
    · exact hsplit ▸ Nat.mul_le_mul_right _ hlower
    · rw [show 2 ^ 53 = 2 ^ (n.log2 + 1) * 2 ^ (52 - n.log2) by
        rw [pow_succ 2 n.log2, mul_right_comm, hsplit, pow_succ]]
      exact Nat.mul_lt_mul_of_pos_right hupper (by positivity)
    · rw [show ((n.log2 : Int) - 52 + 52).toNat = n.log2 by omega, mul_assoc,
        mul_comm (2 ^ (52 - n.log2)), hsplit]
  · obtain ⟨k, hk⟩ := Nat.exists_eq_add_of_le (show 52 ≤ n.log2 by omega)
    have hlower : 2 ^ (52 + k) ≤ n := hk ▸ Nat.log2_self_le (by omega)
    obtain ⟨r, m, e, h, hround, hm₁, hm₂, hr₁, hr₂, hdvd, hcase⟩ := round_large s n k hn hk
    have hk11 : k ≤ 11 := by
      by_contra hlt
      have : 2 ^ 64 ≤ 2 ^ (52 + k) := Nat.pow_le_pow_right (by decide) (by omega)
      omega
    -- Only 2 ^ 63 itself reaches the top binade, and it is exact.
    have htop : k = 11 → n = 2 ^ 63 := by
      rintro rfl
      omega
    have hcarry : r = 2 ^ 53 → k ≤ 10 := by
      intro hr
      by_contra hlt
      have hk' : k = 11 := by omega
      have hn' := htop hk'
      subst hk'
      rw [hn'] at hdvd
      have := hdvd (by decide)
      omega
    refine ⟨r * 2 ^ k, m, e, h, hround, ⟨hm₁, hm₂, ?_, ?_⟩, ?_, ?_⟩
    · rcases hcase with ⟨-, rfl⟩ | ⟨hr, -, rfl⟩
      · omega
      · have := hcarry hr
        omega
    · rcases hcase with ⟨rfl, rfl⟩ | ⟨rfl, rfl, rfl⟩
      · rw [show ((k : Int) + 52).toNat = k + 52 by omega, pow_add, mul_assoc]
      · rw [show ((k : Int) + 1 + 52).toNat = k + 53 by omega, pow_add]
        ring
    · exact round_le n k r hle hlower hr₂ hdvd
    · intro hrep
      rw [hdvd (hrep.dvd hlower)]
      exact Nat.div_mul_cancel (hrep.dvd hlower)

theorem unpack_pack (s : Sign) {r m : Nat} {e : Int} (h : 0 < m) (hf : IntegerForm r m e) :
    (Float.Model.pack (.finite s m e h)).unpack = .finite s m e h := by
  obtain ⟨hlower, hupper, ⟨he₁, he₂⟩, -⟩ := hf
  have hlog : m.log2 = 52 := log2_eq m 52 hlower hupper
  obtain ⟨b, hb⟩ : ∃ b : Nat, (b : Int) = e + 1075 := ⟨(e + 1075).toNat, by omega⟩
  have hbias : (e + (Format.binary64.exponentBias : Int) + (52 : Nat)).toNat = b := by
    change (e + 1023 + 52).toNat = b
    omega
  have hpack : UnpackedFloat.pack Format.binary64 (.finite s m e h) =
      packComponents Format.binary64 s (BitVec.ofNat 11 b) (BitVec.ofNat 52 m) := by
    simp only [UnpackedFloat.pack, hbias, hlog]
    rw [if_neg (by omega)]
    exact if_pos (by decide)
  have hnotAll : BitVec.ofNat 11 b ≠ -1#11 := by
    intro heq
    have := congrArg BitVec.toNat heq
    simp at this
    omega
  have hnotZero : BitVec.ofNat 11 b ≠ 0#11 := by
    intro heq
    have := congrArg BitVec.toNat heq
    simp at this
    omega
  simp only [Float.Model.unpack, Float.Model.pack, hpack, UnpackedFloat.unpack,
    unpackExponent_packComponents, unpackMantissa_packComponents, unpackSign_packComponents,
    Sign.ofBitVec_toBitVec]
  rw [if_neg hnotAll, if_neg hnotZero]
  congr 1
  · have hlow : (BitVec.ofNat 52 m).toNat = m % 2 ^ 52 := BitVec.toNat_ofNat m 52
    rw [BitVec.toNat_append, ← Nat.shiftLeft_add_eq_or_of_lt (BitVec.isLt _), hlow]
    change 1 <<< 52 + m % 2 ^ 52 = m
    omega
  · have hexp : (BitVec.ofNat 11 b).toNat = b := by
      rw [BitVec.toNat_ofNat]
      exact Nat.mod_eq_of_lt (by omega)
    rw [hexp]
    change (b : Int) - (1023 + 52) = e
    omega

theorem roundToInt_eq (s : Sign) {r m : Nat} {e : Int} (hf : IntegerForm r m e) :
    roundToInt s m e = s.apply r := by
  obtain ⟨-, -, ⟨he, -⟩, hvalue⟩ := hf
  by_cases hneg : e < 0
  · obtain ⟨k, rfl⟩ : ∃ k : Nat, e = -k := ⟨(-e).toNat, by omega⟩
    have hk : (-(k : Int) + 52).toNat = 52 - k := by omega
    have hsplit : 2 ^ 52 = 2 ^ k * 2 ^ (52 - k) := by
      rw [← pow_add]
      congr 1
      omega
    have hm : m = r * 2 ^ k := by
      rw [hk, hsplit, ← mul_assoc] at hvalue
      exact Nat.eq_of_mul_eq_mul_right (by positivity) hvalue
    have hnone : (-(k : Int) - 0).toNat = 0 := by omega
    have hshift : (0 - (-(k : Int) - ((0 : Nat) : Int))).toNat = k := by omega
    unfold roundToInt decreaseExponent shiftToExponent
    simp only [hnone, hshift, Nat.shiftLeft_zero, ExtendedMantissa.ofMantissaAndAccuracy,
      repeat_mantissa, hm]
    rw [Nat.mul_div_cancel _ (by positivity)]
  · obtain ⟨k, rfl⟩ : ∃ k : Nat, e = k := ⟨e.toNat, by omega⟩
    have hk : ((k : Int) + 52).toNat = k + 52 := by omega
    have hr : r = m * 2 ^ k := by
      rw [hk, pow_add, ← mul_assoc] at hvalue
      exact (Nat.eq_of_mul_eq_mul_right (by positivity) hvalue).symm
    have hshift : ((k : Int) - 0).toNat = k := by omega
    simp only [roundToInt, decreaseExponent, shiftToExponent, hshift, Nat.shiftLeft_eq,
      Int.sub_self, Int.toNat_zero, ExtendedMantissa.ofMantissaAndAccuracy, repeat_mantissa, hr,
      pow_zero, Nat.div_one]

theorem IntegerForm.representable {r m : Nat} {e : Int} (hf : IntegerForm r m e) :
    Representable r := by
  obtain ⟨-, hupper, ⟨he, -⟩, hvalue⟩ := hf
  by_cases hneg : e < 0
  · refine ⟨r, 0, ?_, by simp⟩
    have hpow : 2 ^ (e + 52).toNat ≤ 2 ^ 52 := Nat.pow_le_pow_right (by decide) (by omega)
    have hrm : r * 2 ^ 52 ≤ m * 2 ^ 52 := by
      rw [← hvalue]
      exact Nat.mul_le_mul_left m hpow
    have : r ≤ m := Nat.le_of_mul_le_mul_right hrm (by positivity)
    simp only [Int.natAbs_natCast]
    omega
  · obtain ⟨k, rfl⟩ : ∃ k : Nat, e = k := ⟨e.toNat, by omega⟩
    refine ⟨m, k, by simpa using hupper, ?_⟩
    rw [show ((k : Int) + 52).toNat = k + 52 by omega, pow_add, ← mul_assoc] at hvalue
    have := Nat.eq_of_mul_eq_mul_right (by positivity) hvalue
    exact_mod_cast this.symm

theorem Representable.neg {n : Int} (h : Representable n) : Representable (-n) := by
  obtain ⟨m, k, hm, rfl⟩ := h
  exact ⟨-m, k, by simpa using hm, by ring⟩

theorem Representable.natAbs {n : Int} (h : Representable n) : Representable n.natAbs := by
  rcases Int.natAbs_eq n with hn | hn
  · rwa [← hn]
  · rw [show (n.natAbs : Int) = -n by omega]
    exact h.neg

theorem truncate_pack (s : Sign) (n : Nat) (hn : 0 < n) (hle : n ≤ 2 ^ 63) :
    ∃ r : Nat, (Float.Model.pack (round Format.binary64 s n 0)).unpack.toInt 0 0 = s.apply r ∧
      r ≤ 2 ^ 63 ∧ Representable r ∧ (Representable n → r = n) := by
  obtain ⟨r, m, e, h, hround, hf, hr, hexact⟩ := round_integer s n hn hle
  refine ⟨r, ?_, hr, hf.representable, hexact⟩
  rw [hround, unpack_pack s h hf]
  exact roundToInt_eq s hf

/-- Converting a 64-bit integer to a double gives a nearby integer, itself if it fits. -/
theorem truncate_ofInt_spec (n : Int) (hn : n.natAbs ≤ 2 ^ 63) :
    ∃ r : Nat, truncate (ofInt n) = n.sign * r ∧ r ≤ 2 ^ 63 ∧ Representable r ∧
      (Representable n → r = n.natAbs) := by
  rcases lt_trichotomy n 0 with hneg | rfl | hpos
  · obtain ⟨r, hr, hle, hrep, hexact⟩ := truncate_pack .negative n.natAbs (by omega) hn
    refine ⟨r, ?_, hle, hrep, fun h => hexact h.natAbs⟩
    have hround : UnpackedFloat.ofInt Format.binary64 n =
        round Format.binary64 .negative n.natAbs 0 := by
      simp only [UnpackedFloat.ofInt, UnpackedFloat.normalize, compare_lt_iff_lt.mpr hneg]
      congr 1
      omega
    rw [Int.sign_eq_neg_one_of_neg hneg]
    simpa only [truncate, ofInt, Float.Model.ofInt, hround, Sign.apply, neg_one_mul] using hr
  · exact ⟨0, by decide, by decide, ⟨0, 0, by decide, rfl⟩, fun _ => rfl⟩
  · obtain ⟨r, hr, hle, hrep, hexact⟩ := truncate_pack .positive n.natAbs (by omega) hn
    refine ⟨r, ?_, hle, hrep, fun h => hexact h.natAbs⟩
    have hround : UnpackedFloat.ofInt Format.binary64 n =
        round Format.binary64 .positive n.natAbs 0 := by
      simp only [UnpackedFloat.ofInt, UnpackedFloat.normalize, compare_gt_iff_gt.mpr hpos]
      congr 1
      omega
    rw [Int.sign_eq_one_of_pos hpos]
    simpa only [truncate, ofInt, Float.Model.ofInt, hround, Sign.apply, one_mul] using hr

theorem natAbs_truncate_le (n : Int) (hn : n.natAbs ≤ 2 ^ 63) :
    (truncate (ofInt n)).natAbs ≤ 2 ^ 63 := by
  obtain ⟨r, hr, hle, -, -⟩ := truncate_ofInt_spec n hn
  rw [hr, Int.natAbs_mul, Int.natAbs_sign, Int.natAbs_natCast]
  split <;> omega

theorem representable_truncate (n : Int) (hn : n.natAbs ≤ 2 ^ 63) :
    Representable (truncate (ofInt n)) := by
  obtain ⟨r, hr, -, hrep, -⟩ := truncate_ofInt_spec n hn
  rw [hr]
  rcases Int.sign_trichotomy n with h | h | h <;> rw [h]
  · simpa using hrep
  · exact ⟨0, 0, by decide, by simp⟩
  · simpa using hrep.neg

/-- Exactly the integers with a 53-bit significand survive the trip through a double. -/
theorem truncate_ofInt_iff (n : Int) (hn : n.natAbs ≤ 2 ^ 63) :
    truncate (ofInt n) = n ↔ Representable n := by
  constructor
  · intro h
    exact h ▸ representable_truncate n hn
  · intro h
    obtain ⟨r, hr, -, -, hexact⟩ := truncate_ofInt_spec n hn
    rw [hr, hexact h, Int.sign_mul_natAbs]

theorem sign_truncate (n : Int) (hn : n.natAbs ≤ 2 ^ 63) (hpos : 0 < truncate (ofInt n)) :
    0 < n := by
  obtain ⟨r, hr, -, -, -⟩ := truncate_ofInt_spec n hn
  by_contra hle
  have hsign : n.sign * r ≤ 0 :=
    Int.mul_nonpos_of_nonpos_of_nonneg (Int.sign_nonpos_iff.mpr (by omega)) (Int.natCast_nonneg r)
  omega

end Binary64
