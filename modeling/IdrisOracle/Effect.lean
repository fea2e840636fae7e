import Mathlib.Data.List.Basic
import Mathlib.Tactic.Common

/-! Stateful computations that may fail to return, the runs they have and what runs preserve. -/

namespace Effect

variable {W α β : Type}

/-- A computation on a world `W`; `none` is a computation that has not returned. -/
abbrev Eff (W : Type) := StateT W Option

/-- Started in `w`, the computation returns `a` and leaves `w'`. -/
def Runs (m : Eff W α) (w : W) (a : α) (w' : W) : Prop := m w = some (a, w')

theorem Runs.unique {m : Eff W α} {w w₁ w₂ : W} {a₁ a₂ : α}
    (h₁ : Runs m w a₁ w₁) (h₂ : Runs m w a₂ w₂) : a₁ = a₂ ∧ w₁ = w₂ := by
  have hsome := h₁.symm.trans h₂
  simpa using hsome

@[simp] theorem runs_pure {a b : α} {w w' : W} :
    Runs (pure a : Eff W α) w b w' ↔ b = a ∧ w' = w := by
  constructor
  · intro h
    cases h
    exact ⟨rfl, rfl⟩
  · rintro ⟨rfl, rfl⟩
    rfl

@[simp] theorem runs_bind {m : Eff W α} {f : α → Eff W β} {w w'' : W} {b : β} :
    Runs (m >>= f) w b w'' ↔ ∃ a w', Runs m w a w' ∧ Runs (f a) w' b w'' := by
  constructor
  · intro h
    change (m w).bind (fun p => f p.1 p.2) = some (b, w'') at h
    cases hm : m w with
    | none => simp [hm] at h
    | some p =>
        rw [hm] at h
        exact ⟨p.1, p.2, hm, h⟩
  · rintro ⟨a, w', hm, hf⟩
    change (m w).bind (fun p => f p.1 p.2) = some (b, w'')
    rw [show m w = some (a, w') from hm]
    exact hf

@[simp] theorem runs_map {m : Eff W α} {f : α → β} {w w' : W} {b : β} :
    Runs (f <$> m) w b w' ↔ ∃ a, Runs m w a w' ∧ b = f a := by
  rw [← bind_pure_comp, runs_bind]
  constructor
  · rintro ⟨a, w₁, hm, hb⟩
    obtain ⟨rfl, rfl⟩ := runs_pure.mp hb
    exact ⟨a, hm, rfl⟩
  · rintro ⟨a, hm, rfl⟩
    exact ⟨a, w', hm, runs_pure.mpr ⟨rfl, rfl⟩⟩

@[simp] theorem runs_get {w w' a : W} : Runs (get : Eff W W) w a w' ↔ a = w ∧ w' = w := by
  constructor
  · intro h
    cases h
    exact ⟨rfl, rfl⟩
  · rintro ⟨rfl, rfl⟩
    rfl

@[simp] theorem runs_modify {f : W → W} {w w' : W} {u : Unit} :
    Runs (modify f : Eff W Unit) w u w' ↔ w' = f w := by
  constructor
  · intro h
    cases h
    rfl
  · rintro rfl
    rfl

/-- A step of the world that always returns. -/
def step (f : W → α × W) : Eff W α := fun w => some (f w)

@[simp] theorem runs_step {f : W → α × W} {w w' : W} {a : α} :
    Runs (step f) w a w' ↔ a = (f w).1 ∧ w' = (f w).2 := by
  constructor
  · intro h
    have hf : f w = (a, w') := by simpa [Runs, step] using h
    rw [hf]
    exact ⟨rfl, rfl⟩
  · rintro ⟨rfl, rfl⟩
    rfl

@[simp] theorem pure_apply (a : α) (w : W) : (Pure.pure a : Eff W α) w = some (a, w) := rfl

@[simp] theorem bind_apply (m : Eff W α) (f : α → Eff W β) (w : W) :
    (m >>= f) w = (m w).bind fun p => f p.1 p.2 := rfl

@[simp] theorem get_apply (w : W) : (get : Eff W W) w = some (w, w) := rfl

@[simp] theorem modify_apply (f : W → W) (w : W) :
    (modify f : Eff W Unit) w = some ((), f w) := rfl

@[simp] theorem step_apply (f : W → α × W) (w : W) : step f w = some (f w) := rfl

@[simp] theorem map_apply (m : Eff W α) (f : α → β) (w : W) :
    (f <$> m) w = (m w).map fun p => (f p.1, p.2) := by
  cases hm : m w with
  | none => simp [Functor.map, StateT.map, hm]
  | some p => simp [Functor.map, StateT.map, hm]

theorem Runs.pure (a : α) (w : W) : Runs (Pure.pure a : Eff W α) w a w := rfl

theorem Runs.bind {m : Eff W α} {f : α → Eff W β} {w w' w'' : W} {a : α} {b : β}
    (hm : Runs m w a w') (hf : Runs (f a) w' b w'') : Runs (m >>= f) w b w'' :=
  runs_bind.mpr ⟨a, w', hm, hf⟩

/-- Acquire a resource, use it and release it, whatever the use returned. -/
def bracket {ρ : Type} (acquire : Eff W ρ) (use : ρ → Eff W α) (release : ρ → Eff W Unit) :
    Eff W α := do
  let r ← acquire
  let a ← use r
  release r
  return a

@[simp] theorem runs_bracket {ρ : Type} {acquire : Eff W ρ} {use : ρ → Eff W α}
    {release : ρ → Eff W Unit} {w w' : W} {a : α} :
    Runs (bracket acquire use release) w a w' ↔
      ∃ r w₁ w₂, Runs acquire w r w₁ ∧ Runs (use r) w₁ a w₂ ∧ Runs (release r) w₂ () w' := by
  constructor
  · intro h
    obtain ⟨r, w₁, hacquire, h⟩ := runs_bind.mp h
    obtain ⟨b, w₂, huse, h⟩ := runs_bind.mp h
    obtain ⟨_, w₃, hrelease, h⟩ := runs_bind.mp h
    obtain ⟨rfl, rfl⟩ := runs_pure.mp h
    exact ⟨r, w₁, w₂, hacquire, huse, hrelease⟩
  · rintro ⟨r, w₁, w₂, hacquire, huse, hrelease⟩
    exact hacquire.bind (huse.bind (hrelease.bind (Runs.pure a w')))

/-- The computation returns from every world and relates it to the one it leaves by `R`. -/
def Preserves (R : W → W → Prop) (m : Eff W α) : Prop :=
  ∀ w, ∃ a w', Runs m w a w' ∧ R w w'

namespace Preserves

variable {R : W → W → Prop}

theorem of_runs {m : Eff W α} (hm : Preserves R m) {w w' : W} {a : α} (hrun : Runs m w a w') :
    R w w' := by
  obtain ⟨b, w₁, hrun', hrel⟩ := hm w
  obtain ⟨-, rfl⟩ := hrun.unique hrun'
  exact hrel

theorem pure (hrefl : ∀ w, R w w) (a : α) : Preserves R (Pure.pure a : Eff W α) :=
  fun w => ⟨a, w, Runs.pure a w, hrefl w⟩

theorem bind {m : Eff W α} {f : α → Eff W β} (hm : Preserves R m)
    (htrans : ∀ u v w, R u v → R v w → R u w) (hf : ∀ a, Preserves R (f a)) :
    Preserves R (m >>= f) := by
  intro w
  obtain ⟨a, w₁, hfirst, hrel₁⟩ := hm w
  obtain ⟨b, w₂, hrest, hrel₂⟩ := hf a w₁
  exact ⟨b, w₂, hfirst.bind hrest, htrans _ _ _ hrel₁ hrel₂⟩

theorem step (f : W → α × W) (hf : ∀ w, R w (f w).2) : Preserves R (Effect.step f) :=
  fun w => ⟨_, _, rfl, hf w⟩

theorem bracket (htrans : ∀ u v w, R u v → R v w → R u w) (hrefl : ∀ w, R w w) {ρ : Type}
    {acquire : Eff W ρ} {use : ρ → Eff W α} {release : ρ → Eff W Unit}
    (hacquire : Preserves R acquire) (huse : ∀ r, Preserves R (use r))
    (hrelease : ∀ r, Preserves R (release r)) :
    Preserves R (Effect.bracket acquire use release) :=
  hacquire.bind htrans fun r =>
    (huse r).bind htrans fun a => (hrelease r).bind htrans fun _ => Preserves.pure hrefl a

end Preserves

/-- Started where `P` holds, the computation returns, with `Q` of what it returns and leaves. -/
def Ensures (P : W → Prop) (m : Eff W α) (Q : α → W → Prop) : Prop :=
  ∀ w, P w → ∃ a w', Runs m w a w' ∧ Q a w'

namespace Ensures

variable {P P' : W → Prop} {Q : α → W → Prop} {R : β → W → Prop}

theorem pure {a : α} (h : ∀ w, P w → Q a w) : Ensures P (Pure.pure a : Eff W α) Q :=
  fun w hw => ⟨a, w, Runs.pure a w, h w hw⟩

theorem bind {m : Eff W α} {f : α → Eff W β} (hm : Ensures P m Q)
    (hf : ∀ a, Ensures (Q a) (f a) R) : Ensures P (m >>= f) R := by
  intro w hw
  obtain ⟨a, w₁, hfirst, hq⟩ := hm w hw
  obtain ⟨b, w₂, hrest, hr⟩ := hf a w₁ hq
  exact ⟨b, w₂, hfirst.bind hrest, hr⟩

/-- Sequencing when the first result satisfies `p`, whatever it is. -/
theorem bind_of {m : Eff W α} {f : α → Eff W β} {p : α → Prop}
    (hm : Ensures P m fun a w => p a ∧ P' w) (hf : ∀ a, p a → Ensures P' (f a) R) :
    Ensures P (m >>= f) R :=
  hm.bind fun a w hw => hf a hw.1 w hw.2

theorem imp {m : Eff W α} {Q' : α → W → Prop} (hm : Ensures P m Q)
    (h : ∀ a w, Q a w → Q' a w) : Ensures P m Q' := by
  intro w hw
  obtain ⟨a, w', hrun, hq⟩ := hm w hw
  exact ⟨a, w', hrun, h a w' hq⟩

theorem bracket {ρ : Type} {acquire : Eff W ρ} {use : ρ → Eff W α} {release : ρ → Eff W Unit}
    {A : ρ → W → Prop} {U : ρ → α → W → Prop} (hacquire : Ensures P acquire A)
    (huse : ∀ r, Ensures (A r) (use r) (U r))
    (hrelease : ∀ r a, Ensures (U r a) (release r) fun _ => Q a) :
    Ensures P (Effect.bracket acquire use release) Q :=
  hacquire.bind fun r =>
    (huse r).bind fun a => (hrelease r a).bind fun _ => Ensures.pure fun _ hw => hw

/-- What a computation ensures holds of every run it has. -/
theorem of_runs {m : Eff W α} {w w' : W} {a : α} (hm : Ensures P m Q) (hw : P w)
    (hrun : Runs m w a w') : Q a w' := by
  obtain ⟨b, w₁, hrun', hq⟩ := hm w hw
  obtain ⟨rfl, rfl⟩ := hrun.unique hrun'
  exact hq

end Ensures

end Effect
