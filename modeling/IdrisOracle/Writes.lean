import Mathlib.Data.List.Basic
import Mathlib.Logic.Function.Basic
import Mathlib.Tactic.Common

/-! Writing a list of keyed values into a store, one after another. -/

namespace Writes

variable {κ ν : Type} {ps qs : List (κ × ν)}

/-- No key is written with two values. -/
def Agrees (ps : List (κ × ν)) : Prop := ∀ p ∈ ps, ∀ q ∈ ps, p.1 = q.1 → p.2 = q.2

theorem Agrees.perm (h : Agrees ps) (hperm : qs.Perm ps) : Agrees qs :=
  fun p hp q hq => h p (hperm.mem_iff.mp hp) q (hperm.mem_iff.mp hq)

variable [DecidableEq κ] {f : κ → ν} {k : κ} {v : ν}

/-- The store after the writes. -/
def write (f : κ → ν) (ps : List (κ × ν)) : κ → ν :=
  ps.foldl (fun g p => Function.update g p.1 p.2) f

@[simp] theorem write_nil : write f [] = f := rfl

@[simp] theorem write_cons {p : κ × ν} :
    write f (p :: ps) = write (Function.update f p.1 p.2) ps := rfl

@[simp] theorem write_append : write f (ps ++ qs) = write (write f ps) qs :=
  List.foldl_append

/-- A key that is not written keeps its value. -/
theorem write_of_not_mem (h : ∀ p ∈ ps, p.1 ≠ k) : write f ps k = f k := by
  induction ps generalizing f with
  | nil => rfl
  | cons p ps ih =>
      have hne : k ≠ p.1 := fun heq => h p (by simp) heq.symm
      rw [write_cons, ih fun q hq => h q (by simp [hq]), Function.update_of_ne hne]

/-- The last write to a key wins. -/
theorem write_last (h : ∀ q ∈ qs, q.1 ≠ k) : write f (ps ++ (k, v) :: qs) k = v := by
  rw [write_append, write_cons, write_of_not_mem h, Function.update_self]

/-- Without two values for a key, every write is still there at the end. -/
theorem write_of_mem (h : Agrees ps) {p : κ × ν} (hp : p ∈ ps) : write f ps p.1 = p.2 := by
  induction ps generalizing f p with
  | nil => cases hp
  | cons q ps ih =>
      have htail : Agrees ps := fun a ha b hb => h a (by simp [ha]) b (by simp [hb])
      by_cases hlater : ∃ r ∈ ps, r.1 = p.1
      · obtain ⟨r, hr, hkey⟩ := hlater
        have hvalue : r.2 = p.2 := h r (by simp [hr]) p hp hkey
        rw [write_cons, ← hkey, ← hvalue]
        exact ih htail hr
      · have hpq : p = q := by
          rcases List.mem_cons.mp hp with rfl | hp
          · rfl
          · exact absurd ⟨p, hp, rfl⟩ hlater
        subst hpq
        have hnone : ∀ r ∈ ps, r.1 ≠ p.1 := fun r hr hkey => hlater ⟨r, hr, hkey⟩
        rw [write_cons, write_of_not_mem hnone, Function.update_self]

/-- Without two values for a key, the order of the writes does not matter. -/
theorem write_perm (h : Agrees ps) (hperm : qs.Perm ps) : write f qs = write f ps := by
  funext k
  by_cases hk : ∃ p ∈ ps, p.1 = k
  · obtain ⟨p, hp, rfl⟩ := hk
    rw [write_of_mem h hp, write_of_mem (h.perm hperm) (hperm.mem_iff.mpr hp)]
  · have hps : ∀ p ∈ ps, p.1 ≠ k := fun p hp heq => hk ⟨p, hp, heq⟩
    have hqs : ∀ q ∈ qs, q.1 ≠ k := fun q hq => hps q (hperm.mem_iff.mp hq)
    rw [write_of_not_mem hps, write_of_not_mem hqs]

end Writes
