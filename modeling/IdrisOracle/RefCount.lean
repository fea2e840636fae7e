import Mathlib.Data.List.Basic
import Mathlib.Logic.Function.Basic
import Mathlib.Tactic.Common

/-! Reference counts of objects that one owner keeps in slots and that others may release. -/

namespace RefCount

variable {ι : Type}

/-- The counts, the objects in the slots of the owner and whether all went well so far. -/
structure Ledger (ι : Type) where
  count : ι → Nat
  owned : List ι
  sound : Bool

namespace Ledger

/-- The owner keeps each object in one slot and its references are the only ones. -/
structure Exact (l : Ledger ι) : Prop where
  nodup : l.owned.Nodup
  count_owned : ∀ x ∈ l.owned, l.count x = 1

/-- As long as all went well, the ledger is exact. -/
def WellFormed (l : Ledger ι) : Prop := l.sound = true → l.Exact

theorem exact_empty {l : Ledger ι} (h : l.owned = []) : l.Exact :=
  ⟨by simp [h], by simp [h]⟩

variable [DecidableEq ι]

/-- A reference is given up, which is wrong when there is none. -/
def giveUp (l : Ledger ι) (x : ι) : Ledger ι :=
  { l with
    count := Function.update l.count x (l.count x - 1)
    sound := l.sound && decide (0 < l.count x) }

/-- An object in a slot that has no reference is wrong. -/
def check (l : Ledger ι) : Ledger ι :=
  { l with sound := l.sound && l.owned.all fun x => decide (0 < l.count x) }

/-- Someone other than the owner gives up a reference. -/
def release (l : Ledger ι) (x : ι) : Ledger ι := (l.giveUp x).check

/-- The owner gives up the references of its slots. -/
def clear (l : Ledger ι) : Ledger ι := { l.owned.foldl giveUp l with owned := [] }

/-- The owner gives up the references of its slots and fills them with new objects. -/
def refill (l : Ledger ι) (fresh : List ι) : Ledger ι :=
  check
    { l.clear with
      count := fun x => if x ∈ fresh then 1 else l.clear.count x
      owned := fresh }

variable {l : Ledger ι}

theorem sound_foldl_giveUp {xs : List ι} (hnodup : xs.Nodup) (hcount : ∀ x ∈ xs, l.count x = 1) :
    (xs.foldl giveUp l).sound = l.sound := by
  induction xs generalizing l with
  | nil => rfl
  | cons x xs ih =>
      obtain ⟨hx, hxs⟩ := List.nodup_cons.mp hnodup
      have hrest : ∀ y ∈ xs, (l.giveUp x).count y = 1 := by
        intro y hy
        have hne : y ≠ x := by
          rintro rfl
          exact hx hy
        simpa [giveUp, Function.update_of_ne hne] using hcount y (List.mem_cons_of_mem _ hy)
      have hfirst : (l.giveUp x).sound = l.sound := by
        simp [giveUp, hcount x List.mem_cons_self]
      rw [List.foldl_cons, ih hxs hrest, hfirst]

theorem unsound_foldl_giveUp {xs : List ι} (h : l.sound = false) :
    (xs.foldl giveUp l).sound = false := by
  induction xs generalizing l with
  | nil => exact h
  | cons x xs ih => exact ih (by simp [giveUp, h])

/-- The owner may give up what it has. -/
theorem sound_clear (h : l.WellFormed) : l.clear.sound = l.sound := by
  cases hsound : l.sound with
  | true =>
      obtain ⟨hnodup, hcount⟩ := h hsound
      rw [clear, sound_foldl_giveUp hnodup hcount, hsound]
  | false => exact unsound_foldl_giveUp hsound

theorem wellFormed_clear : l.clear.WellFormed := fun _ => exact_empty rfl

theorem sound_refill (h : l.WellFormed) (fresh : List ι) : (l.refill fresh).sound = l.sound := by
  have hfresh : ∀ x ∈ fresh, 0 < if x ∈ fresh then 1 else l.clear.count x := by
    intro x hx
    simp [hx]
  simpa [refill, check, sound_clear h] using fun _ => hfresh

theorem wellFormed_refill {fresh : List ι} (hfresh : fresh.Nodup) :
    (l.refill fresh).WellFormed := by
  refine fun _ => ⟨hfresh, fun x hx => ?_⟩
  have hmem : x ∈ fresh := hx
  simp [refill, check, hmem]

/-- A release goes well when there is a reference and every slot keeps one. -/
theorem sound_release_iff {x : ι} :
    (l.release x).sound = true ↔
      l.sound = true ∧ 0 < l.count x ∧ ∀ y ∈ l.owned, 0 < (l.release x).count y := by
  have hsound : (l.release x).sound = (l.sound && decide (0 < l.count x) &&
      l.owned.all fun y => decide (0 < (l.release x).count y)) := rfl
  simp [hsound, and_assoc]

theorem unsound_release {x : ι} (h : l.sound = false) : (l.release x).sound = false := by
  simp [release, check, giveUp, h]

/-- An object that someone else releases is left without a reference in its slot. -/
theorem unsound_release_owned {x : ι} (h : l.WellFormed) (hx : x ∈ l.owned) :
    (l.release x).sound = false := by
  by_contra hne
  obtain ⟨hsound, -, hcount⟩ := sound_release_iff.mp (Bool.of_not_eq_false hne)
  have hone := (h hsound).count_owned x hx
  have hzero : (l.release x).count x = 0 := by simp [release, check, giveUp, hone]
  exact absurd (hcount x hx) (by omega)

end Ledger

end RefCount
