import Mathlib.Algebra.Order.Field.Power
import Mathlib.Data.List.DropRight
import Mathlib.Data.Nat.Digits.Lemmas
import Mathlib.Tactic.FieldSimp

/-! Digits in a base with a point among them, and the number that they stand for. -/

namespace Positional

variable {b : ℕ} {digits digits' : List ℕ} {point point' : ℤ}

/-- The number that the digits stand for, most significant first, with the point after the
first `point` of them. -/
def value (b : ℕ) (digits : List ℕ) (point : ℤ) : ℚ :=
  (Nat.ofDigits b digits.reverse : ℕ) * (b : ℚ) ^ (point - digits.length)

@[simp] theorem value_nil : value b [] point = 0 := by
  simp [value]

/-- Zeros in front only move the point. -/
theorem value_replicate_append (k : ℕ) :
    value b (List.replicate k 0 ++ digits) point = value b digits (point - k) := by
  have hlength : point - ((List.replicate k 0 ++ digits).length : ℤ) =
      point - k - (digits.length : ℤ) := by
    rw [List.length_append, List.length_replicate]
    push_cast
    ring
  rw [value, value, hlength, List.reverse_append, List.reverse_replicate,
    Nat.ofDigits_append_replicate_zero]

/-- Zeros at the end do not change the number. -/
theorem value_append_replicate (hb : 0 < b) (k : ℕ) :
    value b (digits ++ List.replicate k 0) point = value b digits point := by
  have hne : (b : ℚ) ≠ 0 := Nat.cast_ne_zero.mpr hb.ne'
  have hlength : point - (digits.length : ℤ) =
      point - ((digits ++ List.replicate k 0).length : ℤ) + k := by
    rw [List.length_append, List.length_replicate]
    push_cast
    ring
  have hdigits : Nat.ofDigits b (digits ++ List.replicate k 0).reverse =
      b ^ k * Nat.ofDigits b digits.reverse := by
    rw [List.reverse_append, List.reverse_replicate, Nat.ofDigits_append, List.length_replicate,
      Nat.ofDigits_replicate_zero, Nat.zero_add]
  rw [value, value, hlength, zpow_add₀ hne, hdigits, zpow_natCast]
  push_cast
  ring

/-- Digits of which none can be left out: the first and the last are not zero. -/
structure Normal (b : ℕ) (digits : List ℕ) : Prop where
  lt : ∀ d ∈ digits, d < b
  head : digits.head? ≠ some 0
  last : digits.getLast? ≠ some 0

namespace Normal

theorem digits_ofDigits (hb : 1 < b) (h : Normal b digits) :
    Nat.digits b (Nat.ofDigits b digits.reverse) = digits.reverse := by
  refine Nat.digits_ofDigits b hb _ (fun d hd => h.lt d (List.mem_reverse.mp hd)) fun hne => ?_
  intro hzero
  refine h.head ?_
  rw [List.getLast_reverse] at hzero
  rw [List.head?_eq_some_head (by simpa using hne), hzero]

/-- The last digit is left over by the base. -/
theorem not_dvd (h : Normal b digits) (hne : digits ≠ []) :
    ¬ b ∣ Nat.ofDigits b digits.reverse := by
  intro hdvd
  obtain ⟨front, last, rfl⟩ := List.eq_nil_or_concat digits |>.resolve_left hne
  rw [List.concat_eq_append] at h hdvd
  have hlt : last < b := h.lt last (by simp)
  have hlast : last ≠ 0 := by
    rintro rfl
    exact h.last (by simp)
  rw [List.reverse_append, List.reverse_singleton, List.singleton_append, Nat.ofDigits_cons,
    Nat.dvd_add_left (Nat.dvd_mul_right _ _)] at hdvd
  exact hlast (Nat.eq_zero_of_dvd_of_lt hdvd hlt)

theorem ofDigits_ne_zero (h : Normal b digits) (hne : digits ≠ []) :
    Nat.ofDigits b digits.reverse ≠ 0 := by
  intro hzero
  exact h.not_dvd hne (hzero ▸ Nat.dvd_zero b)

theorem value_pos (hb : 1 < b) (h : Normal b digits) (hne : digits ≠ []) :
    0 < value b digits point := by
  have hbase : (0 : ℚ) < b := Nat.cast_pos.mpr (by omega)
  have hdigits : (0 : ℚ) < (Nat.ofDigits b digits.reverse : ℕ) :=
    Nat.cast_pos.mpr (Nat.pos_of_ne_zero (h.ofDigits_ne_zero hne))
  exact mul_pos hdigits (zpow_pos hbase _)

/-- The shift of one number is not larger than that of the other. -/
theorem shift_le (hb : 1 < b) (h : Normal b digits) (hne : digits ≠ []) {i j : ℤ} {n : ℕ}
    (hv : ((Nat.ofDigits b digits.reverse : ℕ) : ℚ) * (b : ℚ) ^ i = n * (b : ℚ) ^ j) : j ≤ i := by
  by_contra hlt
  have hbase : (b : ℚ) ≠ 0 := Nat.cast_ne_zero.mpr (by omega)
  obtain ⟨k, hk⟩ : ∃ k : ℕ, j = i + (k + 1 : ℕ) := ⟨(j - i - 1).toNat, by omega⟩
  rw [hk, zpow_add₀ hbase, zpow_natCast, ← mul_assoc, mul_right_comm] at hv
  have hcancel := mul_right_cancel₀ (zpow_ne_zero i hbase) hv
  have hnat : Nat.ofDigits b digits.reverse = n * b ^ (k + 1) := by exact_mod_cast hcancel
  exact h.not_dvd hne ⟨n * b ^ k, by rw [hnat]; ring⟩

/-- A number has only one way to be written without zeros at its ends. -/
theorem value_injective (hb : 1 < b) (h : Normal b digits) (h' : Normal b digits')
    (hne : digits ≠ []) (hv : value b digits point = value b digits' point') :
    digits = digits' ∧ point = point' := by
  have hbase : (b : ℚ) ≠ 0 := Nat.cast_ne_zero.mpr (by omega)
  have hne' : digits' ≠ [] := by
    rintro rfl
    rw [value_nil] at hv
    exact (h.value_pos hb hne).ne' hv
  have hshift : point - digits.length = point' - digits'.length :=
    le_antisymm (h'.shift_le hb hne' hv.symm) (h.shift_le hb hne hv)
  rw [value, value, hshift] at hv
  have hnat : Nat.ofDigits b digits.reverse = Nat.ofDigits b digits'.reverse := by
    exact_mod_cast mul_right_cancel₀ (zpow_ne_zero _ hbase) hv
  have hdigits : digits = digits' := by
    rw [← List.reverse_inj, ← h.digits_ofDigits hb, hnat, h'.digits_ofDigits hb]
  subst hdigits
  exact ⟨rfl, by omega⟩

end Normal

def leadingZeros (digits : List ℕ) : ℕ := (digits.takeWhile (· = 0)).length

/-- The digits without the zeros at their ends. -/
def trim (digits : List ℕ) : List ℕ := (digits.dropWhile (· = 0)).rdropWhile (· = 0)

theorem takeWhile_zero (digits : List ℕ) :
    digits.takeWhile (· = 0) = List.replicate (leadingZeros digits) 0 :=
  List.eq_replicate_iff.mpr ⟨rfl, fun _ hd => by simpa using List.mem_takeWhile_imp hd⟩

theorem exists_rdropWhile_append (digits : List ℕ) :
    ∃ k, digits.rdropWhile (· = 0) ++ List.replicate k 0 = digits := by
  refine ⟨(digits.rtakeWhile (· = 0)).length, ?_⟩
  have hzeros : digits.rtakeWhile (· = 0) =
      List.replicate (digits.rtakeWhile (· = 0)).length 0 :=
    List.eq_replicate_iff.mpr ⟨rfl, fun _ hd => by simpa using List.mem_rtakeWhile_imp hd⟩
  rw [← hzeros, List.rdropWhile_append_rtakeWhile]

theorem value_trim (hb : 0 < b) :
    value b (trim digits) (point - leadingZeros digits) = value b digits point := by
  obtain ⟨k, hk⟩ := exists_rdropWhile_append (digits.dropWhile (· = 0))
  rw [← value_append_replicate hb k, trim, hk, ← value_replicate_append, ← takeWhile_zero,
    List.takeWhile_append_dropWhile]

theorem trim_subset : trim digits ⊆ digits := fun _ hd =>
  (List.dropWhile_sublist _).subset ((List.rdropWhile_prefix _ _).subset hd)

theorem head?_of_prefix {l : List ℕ} {d : ℕ} (h : l <+: digits) (hd : l.head? = some d) :
    digits.head? = some d := by
  obtain ⟨rest, rfl⟩ := h
  rw [List.head?_append, hd]
  rfl

theorem normal_trim (h : ∀ d ∈ digits, d < b) : Normal b (trim digits) where
  lt d hd := h d (trim_subset hd)
  head hzero := by
    have hdrop := head?_of_prefix (List.rdropWhile_prefix _ _) hzero
    have hne : digits.dropWhile (· = 0) ≠ [] := by
      intro hempty
      rw [hempty] at hdrop
      cases hdrop
    have hhead := List.head_dropWhile_not (· = 0) hne
    rw [List.head?_eq_some_head hne, Option.some_inj] at hdrop
    rw [hdrop] at hhead
    cases hhead
  last hzero := by
    have hne : trim digits ≠ [] := by
      intro hempty
      rw [hempty] at hzero
      cases hzero
    have hlast := List.rdropWhile_last_not _ _ hne
    rw [List.getLast?_eq_some_getLast hne, Option.some_inj] at hzero
    exact hlast (decide_eq_true hzero)

end Positional
