import Mathlib.Data.List.Forall2
import Mathlib.Tactic.Common

/-! Traversals of a list that stop at the first error. -/

namespace FirstError

variable {α β ε : Type} {f : α → Except ε β} {x : α} {xs : List α}

/-- `err` is the error of the first element on which `f` fails. -/
def FailsFirst (f : α → Except ε β) (xs : List α) (err : ε) : Prop :=
  ∃ before x after, xs = before ++ x :: after ∧ (∀ y ∈ before, ∃ z, f y = .ok z) ∧
    f x = .error err

theorem mapM_cons_error {err : ε} (h : f x = .error err) : (x :: xs).mapM f = .error err := by
  rw [List.mapM_cons, h]
  rfl

theorem mapM_cons_ok {z : β} (h : f x = .ok z) : (x :: xs).mapM f = (xs.mapM f).map (z :: ·) := by
  rw [List.mapM_cons, h]
  cases xs.mapM f <;> rfl

/-- A traversal succeeds with the results of all elements, in their order. -/
theorem mapM_eq_ok_iff {zs : List β} :
    xs.mapM f = .ok zs ↔ List.Forall₂ (fun y z => f y = .ok z) xs zs := by
  induction xs generalizing zs with
  | nil =>
      rw [List.mapM_nil, List.forall₂_nil_left_iff]
      exact ⟨fun h => (Except.ok.inj h).symm, fun h => congrArg Except.ok h.symm⟩
  | cons x xs ih =>
      rw [List.forall₂_cons_left_iff]
      cases hx : f x with
      | error err =>
          rw [mapM_cons_error hx]
          refine iff_of_false (by simp) ?_
          rintro ⟨z, rest, hz, -, -⟩
          cases hz
      | ok z =>
          rw [mapM_cons_ok hx]
          constructor
          · intro h
            cases hrest : xs.mapM f with
            | error err =>
                rw [hrest] at h
                cases h
            | ok rest =>
                rw [hrest] at h
                cases h
                exact ⟨z, rest, rfl, ih.mp hrest, rfl⟩
          · rintro ⟨z', rest, hz, hrest, rfl⟩
            cases hz
            rw [ih.mpr hrest]
            rfl

/-- A traversal succeeds if and only if it does so on each element. -/
theorem exists_mapM_eq_ok_iff : (∃ zs, xs.mapM f = .ok zs) ↔ ∀ y ∈ xs, ∃ z, f y = .ok z := by
  induction xs with
  | nil => simp [pure, Except.pure]
  | cons x xs ih =>
      cases hx : f x with
      | error err => simp [mapM_cons_error hx, hx]
      | ok z =>
          rw [mapM_cons_ok hx, List.forall_mem_cons, ← ih]
          cases xs.mapM f with
          | error err => simp [Except.map, hx]
          | ok zs => simp [Except.map, hx]

/-- A traversal fails with the error of the first element that fails. -/
theorem mapM_eq_error_iff {err : ε} : xs.mapM f = .error err ↔ FailsFirst f xs err := by
  induction xs with
  | nil =>
      refine iff_of_false (by rw [List.mapM_nil]; exact fun h => by cases h) ?_
      rintro ⟨before, x, after, hsplit, -, -⟩
      simp at hsplit
  | cons x xs ih =>
      cases hx : f x with
      | error err' =>
          rw [mapM_cons_error hx]
          constructor
          · intro h
            cases h
            exact ⟨[], x, xs, rfl, by simp, hx⟩
          · rintro ⟨before, y, after, hsplit, hbefore, hy⟩
            cases before with
            | nil =>
                cases hsplit
                rw [hx] at hy
                cases hy
                rfl
            | cons b before =>
                cases hsplit
                obtain ⟨z, hz⟩ := hbefore x (by simp)
                rw [hx] at hz
                cases hz
      | ok z =>
          have hmap : (x :: xs).mapM f = .error err ↔ xs.mapM f = .error err := by
            rw [mapM_cons_ok hx]
            cases xs.mapM f <;> simp [Except.map]
          rw [hmap, ih]
          constructor
          · rintro ⟨before, y, after, rfl, hbefore, hy⟩
            refine ⟨x :: before, y, after, rfl, ?_, hy⟩
            intro b hb
            rcases List.mem_cons.mp hb with rfl | hb
            · exact ⟨z, hx⟩
            · exact hbefore b hb
          · rintro ⟨before, y, after, hsplit, hbefore, hy⟩
            cases before with
            | nil =>
                cases hsplit
                rw [hx] at hy
                cases hy
            | cons b before =>
                cases hsplit
                exact ⟨before, y, after, rfl, fun c hc => hbefore c (by simp [hc]), hy⟩

end FirstError
