import Mathlib.Data.List.Basic
import Mathlib.Tactic.Common

/-! Stable sorts by a key. -/

instance isLinearOrderInt64 : Std.IsLinearOrder Int64 := by
  apply Std.IsLinearOrder.of_le
  case le_antisymm => exact ⟨fun _ _ => Int64.le_antisymm⟩
  case le_trans => exact ⟨Int64.le_trans⟩
  case le_total => exact ⟨Int64.le_total⟩

variable {α κ : Type} [LE κ] [DecidableLE κ] [DecidableEq κ] {key : α → κ} {xs ys zs : List α}

/-- The second list has the elements of the first in ascending order, ties as they stood. -/
structure StableSort (key : α → κ) (xs ys : List α) : Prop where
  perm : ys.Perm xs
  sorted : ys.Pairwise fun a b => key a ≤ key b
  stable : ∀ k, (ys.filter fun a => key a = k) = xs.filter fun a => key a = k

namespace StableSort

omit [DecidableLE κ] in
theorem filter (h : StableSort key xs ys) (p : α → Bool) :
    StableSort key (xs.filter p) (ys.filter p) := by
  refine ⟨h.perm.filter p, h.sorted.filter p, fun k => ?_⟩
  rw [List.filter_comm, h.stable, List.filter_comm]

variable [Std.IsLinearOrder κ]

theorem mergeSort (key : α → κ) (xs : List α) :
    StableSort key xs (xs.mergeSort fun a b => key a ≤ key b) := by
  have htrans : ∀ a b c : α, decide (key a ≤ key b) = true → decide (key b ≤ key c) = true →
      decide (key a ≤ key c) = true := by
    intro a b c hab hbc
    simp only [decide_eq_true_eq] at hab hbc ⊢
    exact Std.le_trans hab hbc
  have htotal : ∀ a b : α, (decide (key a ≤ key b) || decide (key b ≤ key a)) = true := by
    intro a b
    simpa using Std.le_total (a := key a) (b := key b)
  have hperm := List.mergeSort_perm xs fun a b => decide (key a ≤ key b)
  refine ⟨hperm, (List.pairwise_mergeSort htrans htotal xs).imp (by simp), fun k => ?_⟩
  -- one key's elements are sorted, so they keep their order; there are as many before as after
  have hclass : (xs.filter fun a => key a = k).Pairwise fun a b => decide (key a ≤ key b) := by
    refine List.pairwise_of_forall_mem_list fun a ha b hb => ?_
    have hkey : key a = key b := by
      rw [(by simpa using ha : a ∈ xs ∧ key a = k).2, (by simpa using hb : b ∈ xs ∧ key b = k).2]
    simp [hkey]
  have hsub := (List.sublist_mergeSort htrans htotal hclass List.filter_sublist).filter
    fun a => decide (key a = k)
  rw [List.filter_filter] at hsub
  simp only [Bool.and_self] at hsub
  exact (hsub.eq_of_length (hperm.filter _).length_eq.symm).symm

omit [LE κ] [DecidableLE κ] [Std.IsLinearOrder κ] in
theorem mem_iff_of_classes
    (h : ∀ k, (ys.filter fun a => key a = k) = zs.filter fun a => key a = k) (a : α) :
    a ∈ ys ↔ a ∈ zs := by
  have hclass := congrArg (a ∈ ·) (h (key a))
  simpa using hclass

omit [DecidableLE κ] in
/-- Sorted lists with the same elements of each key, in the same order, are the same. -/
theorem eq_of_classes (hys : ys.Pairwise fun a b => key a ≤ key b)
    (hzs : zs.Pairwise fun a b => key a ≤ key b)
    (h : ∀ k, (ys.filter fun a => key a = k) = zs.filter fun a => key a = k) : ys = zs := by
  induction ys generalizing zs with
  | nil =>
      rw [eq_comm, List.eq_nil_iff_forall_not_mem]
      intro a ha
      exact absurd ((mem_iff_of_classes h a).mpr ha) List.not_mem_nil
  | cons y ys ih =>
      cases zs with
      | nil => exact absurd ((mem_iff_of_classes h y).mp List.mem_cons_self) List.not_mem_nil
      | cons z zs =>
          have hmem := mem_iff_of_classes h
          obtain ⟨hy, hys'⟩ := List.pairwise_cons.mp hys
          obtain ⟨hz, hzs'⟩ := List.pairwise_cons.mp hzs
          have hyz : key y ≤ key z := by
            rcases List.mem_cons.mp ((hmem z).mpr List.mem_cons_self) with rfl | hmem
            · exact Std.le_refl _
            · exact hy z hmem
          have hzy : key z ≤ key y := by
            rcases List.mem_cons.mp ((hmem y).mp List.mem_cons_self) with rfl | hmem
            · exact Std.le_refl _
            · exact hz y hmem
          have hkey : key y = key z := Std.le_antisymm hyz hzy
          have hfirst := h (key z)
          simp only [List.filter_cons, hkey, decide_true, if_true, List.cons.injEq] at hfirst
          obtain ⟨rfl, -⟩ := hfirst
          have hrest : ∀ k, (ys.filter fun a => key a = k) = zs.filter fun a => key a = k := by
            intro k
            have hk := h k
            by_cases hyk : key y = k <;> simpa [hyk] using hk
          rw [ih hys' hzs' hrest]

omit [DecidableLE κ] in
theorem unique (hys : StableSort key xs ys) (hzs : StableSort key xs zs) : ys = zs :=
  eq_of_classes hys.sorted hzs.sorted fun k => (hys.stable k).trans (hzs.stable k).symm

/-- A filter commutes with the sort. -/
theorem filter_mergeSort (p : α → Bool) (xs : List α) :
    (xs.mergeSort fun a b => key a ≤ key b).filter p =
      (xs.filter p).mergeSort fun a b => key a ≤ key b :=
  ((mergeSort key xs).filter p).unique (mergeSort key (xs.filter p))

end StableSort

/-- Without the one element of its key a list falls into what stood before and after it. -/
theorem List.exists_filter_ne_eq_append {α κ : Type} [DecidableEq κ] {key : α → κ} {xs : List α}
    {x : α} (h : (xs.map key).Nodup) (hx : x ∈ xs) :
    ∃ front back, xs = front ++ x :: back ∧
      (xs.filter fun a => key a ≠ key x) = front ++ back := by
  obtain ⟨front, back, rfl⟩ := List.append_of_mem hx
  refine ⟨front, back, rfl, ?_⟩
  have hother : ∀ a, a ∈ front ∨ a ∈ back → key a ≠ key x := by
    intro a ha
    simp only [List.map_append, List.map_cons, List.nodup_append, List.nodup_cons] at h
    rcases ha with ha | ha
    · exact h.2.2 (key a) (List.mem_map_of_mem ha) (key x) List.mem_cons_self
    · intro heq
      exact h.2.1.1 (heq ▸ List.mem_map_of_mem ha)
  rw [List.filter_append, List.filter_cons_of_neg (by simp)]
  congr 1
  · exact List.filter_eq_self.mpr fun a ha => by simpa using hother a (.inl ha)
  · exact List.filter_eq_self.mpr fun a ha => by simpa using hother a (.inr ha)
