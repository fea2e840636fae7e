import Mathlib.Tactic.Common

/-! Stateful computations that fail or return and keep what they changed until then. -/

namespace Fallible

variable {ε σ τ α β : Type}

/-- A computation on a state of type `σ` that may fail with an `ε`. -/
abbrev Attempt (ε σ : Type) := ExceptT ε (StateM σ)

/-- Started in `s`, the computation returns `a` and leaves `s'`. -/
def Returns (m : Attempt ε σ α) (s : σ) (a : α) (s' : σ) : Prop := m.run.run s = (.ok a, s')

/-- Started in `s`, the computation fails with `e` and leaves `s'`. -/
def Fails (m : Attempt ε σ α) (s : σ) (e : ε) (s' : σ) : Prop := m.run.run s = (.error e, s')

theorem returns_or_fails (m : Attempt ε σ α) (s : σ) :
    (∃ a s', Returns m s a s') ∨ ∃ e s', Fails m s e s' := by
  cases h : m.run.run s with
  | mk r s' =>
      cases r with
      | ok a => exact .inl ⟨a, s', h⟩
      | error e => exact .inr ⟨e, s', h⟩

theorem Returns.unique {m : Attempt ε σ α} {s s₁ s₂ : σ} {a₁ a₂ : α} (h₁ : Returns m s a₁ s₁)
    (h₂ : Returns m s a₂ s₂) : a₁ = a₂ ∧ s₁ = s₂ := by
  cases h₁.symm.trans h₂
  exact ⟨rfl, rfl⟩

@[simp] theorem returns_pure {a b : α} {s s' : σ} :
    Returns (pure a : Attempt ε σ α) s b s' ↔ b = a ∧ s' = s := by
  constructor
  · intro h
    cases h
    exact ⟨rfl, rfl⟩
  · rintro ⟨rfl, rfl⟩
    rfl

@[simp] theorem fails_pure {a : α} {e : ε} {s s' : σ} :
    ¬ Fails (pure a : Attempt ε σ α) s e s' := by
  intro h
  cases h

theorem run_bind_of_returns {m : Attempt ε σ α} {f : α → Attempt ε σ β} {s s₁ : σ} {a : α}
    (h : Returns m s a s₁) : (m >>= f).run.run s = (f a).run.run s₁ := by
  change (ExceptT.bindCont f (m.run.run s).1).run (m.run.run s).2 = _
  rw [h]
  rfl

theorem run_bind_of_fails {m : Attempt ε σ α} {f : α → Attempt ε σ β} {s s₁ : σ} {e : ε}
    (h : Fails m s e s₁) : (m >>= f).run.run s = (.error e, s₁) := by
  change (ExceptT.bindCont f (m.run.run s).1).run (m.run.run s).2 = _
  rw [h]
  rfl

@[simp] theorem returns_bind {m : Attempt ε σ α} {f : α → Attempt ε σ β} {s s' : σ} {b : β} :
    Returns (m >>= f) s b s' ↔ ∃ a s₁, Returns m s a s₁ ∧ Returns (f a) s₁ b s' := by
  constructor
  · intro h
    rcases returns_or_fails m s with ⟨a, s₁, hm⟩ | ⟨e, s₁, hm⟩
    · exact ⟨a, s₁, hm, (run_bind_of_returns hm).symm.trans h⟩
    · cases (run_bind_of_fails hm).symm.trans h
  · rintro ⟨a, s₁, hm, hf⟩
    exact (run_bind_of_returns hm).trans hf

/-- A sequence fails in its first part or after it. -/
theorem fails_bind {m : Attempt ε σ α} {f : α → Attempt ε σ β} {s s' : σ} {e : ε} :
    Fails (m >>= f) s e s' ↔
      Fails m s e s' ∨ ∃ a s₁, Returns m s a s₁ ∧ Fails (f a) s₁ e s' := by
  constructor
  · intro h
    rcases returns_or_fails m s with ⟨a, s₁, hm⟩ | ⟨e₁, s₁, hm⟩
    · exact .inr ⟨a, s₁, hm, (run_bind_of_returns hm).symm.trans h⟩
    · cases (run_bind_of_fails hm).symm.trans h
      exact .inl hm
  · rintro (hm | ⟨a, s₁, hm, hf⟩)
    · exact run_bind_of_fails hm
    · exact (run_bind_of_returns hm).trans hf

@[simp] theorem returns_get {s s' a : σ} :
    Returns (get : Attempt ε σ σ) s a s' ↔ a = s ∧ s' = s := by
  constructor
  · intro h
    cases h
    exact ⟨rfl, rfl⟩
  · rintro ⟨rfl, rfl⟩
    rfl

@[simp] theorem fails_get {e : ε} {s s' : σ} : ¬ Fails (get : Attempt ε σ σ) s e s' := by
  intro h
  cases h

@[simp] theorem returns_modify {f : σ → σ} {s s' : σ} {u : Unit} :
    Returns (modify f : Attempt ε σ Unit) s u s' ↔ s' = f s := by
  constructor
  · intro h
    cases h
    rfl
  · rintro rfl
    rfl

@[simp] theorem fails_modify {f : σ → σ} {e : ε} {s s' : σ} :
    ¬ Fails (modify f : Attempt ε σ Unit) s e s' := by
  intro h
  cases h

@[simp] theorem returns_throw {e : ε} {a : α} {s s' : σ} :
    ¬ Returns (throw e : Attempt ε σ α) s a s' := by
  intro h
  cases h

@[simp] theorem fails_throw {e e' : ε} {s s' : σ} :
    Fails (throw e : Attempt ε σ α) s e' s' ↔ e' = e ∧ s' = s := by
  constructor
  · intro h
    cases h
    exact ⟨rfl, rfl⟩
  · rintro ⟨rfl, rfl⟩
    rfl

/-- The computation, where `p` holds. -/
def whenever (p : Prop) [Decidable p] (m : Attempt ε σ Unit) : Attempt ε σ Unit :=
  if p then m else pure ()

/-- A computation on one part of the state. -/
def zoom (view : τ → σ) (put : σ → τ → τ) (m : Attempt ε σ α) : Attempt ε τ α :=
  fun t => ((m.run.run (view t)).1, put (m.run.run (view t)).2 t)

theorem returns_zoom {view : τ → σ} {put : σ → τ → τ} {m : Attempt ε σ α} {t t' : τ} {a : α} :
    Returns (zoom view put m) t a t' ↔ ∃ s', Returns m (view t) a s' ∧ t' = put s' t := by
  constructor
  · intro h
    have hrun : ((m.run.run (view t)).1, put (m.run.run (view t)).2 t) = (.ok a, t') := h
    obtain ⟨hok, hput⟩ := Prod.mk.inj hrun
    exact ⟨_, Prod.ext hok rfl, hput.symm⟩
  · rintro ⟨s', hm, rfl⟩
    have hrun : (zoom view put m).run.run t = ((m.run.run (view t)).1,
        put (m.run.run (view t)).2 t) := rfl
    rw [Returns, hrun, hm]

theorem fails_zoom {view : τ → σ} {put : σ → τ → τ} {m : Attempt ε σ α} {t t' : τ} {e : ε} :
    Fails (zoom view put m) t e t' ↔ ∃ s', Fails m (view t) e s' ∧ t' = put s' t := by
  constructor
  · intro h
    have hrun : ((m.run.run (view t)).1, put (m.run.run (view t)).2 t) = (.error e, t') := h
    obtain ⟨herror, hput⟩ := Prod.mk.inj hrun
    exact ⟨_, Prod.ext herror rfl, hput.symm⟩
  · rintro ⟨s', hm, rfl⟩
    have hrun : (zoom view put m).run.run t = ((m.run.run (view t)).1,
        put (m.run.run (view t)).2 t) := rfl
    rw [Fails, hrun, hm]

/-- What comes after each outcome. -/
def proceed (ok : α → Attempt ε σ β) (error : ε → Attempt ε σ β) :
    Except ε α × σ → Except ε β × σ
  | (.ok a, s) => (ok a).run.run s
  | (.error e, s) => (error e).run.run s

/-- The computation, with what is done when it returns and what when it fails. -/
def handled (m : Attempt ε σ α) (ok : α → Attempt ε σ β) (error : ε → Attempt ε σ β) :
    Attempt ε σ β :=
  fun s => proceed ok error (m.run.run s)

theorem run_handled (m : Attempt ε σ α) (ok : α → Attempt ε σ β) (error : ε → Attempt ε σ β)
    (s : σ) : (handled m ok error).run.run s = proceed ok error (m.run.run s) := rfl

theorem Returns.run_handled {m : Attempt ε σ α} {ok : α → Attempt ε σ β}
    {error : ε → Attempt ε σ β} {s s₁ : σ} {a : α} (h : Returns m s a s₁) :
    (handled m ok error).run.run s = (ok a).run.run s₁ := by
  rw [Fallible.run_handled, h]
  rfl

theorem Fails.run_handled {m : Attempt ε σ α} {ok : α → Attempt ε σ β}
    {error : ε → Attempt ε σ β} {s s₁ : σ} {e : ε} (h : Fails m s e s₁) :
    (handled m ok error).run.run s = (error e).run.run s₁ := by
  rw [Fallible.run_handled, h]
  rfl

/-- The computation with what has to be undone when it fails. -/
def onFailure (m : Attempt ε σ α) (undo : σ → σ) : Attempt ε σ α :=
  handled m pure fun e => do
    modify undo
    throw e

/-- Whatever the outcome, the computation leaves what `f` reads of the state. -/
def Leaves (f : σ → β) (m : Attempt ε σ α) : Prop := ∀ s, f (m.run.run s).2 = f s

theorem Leaves.view {m : Attempt ε σ α} (h : Leaves id m) (f : σ → β) : Leaves f m :=
  fun s => congrArg f (h s)

theorem Leaves.returns {f : σ → β} {m : Attempt ε σ α} {s s' : σ} {a : α} (h : Leaves f m)
    (hm : Returns m s a s') : f s' = f s := by
  rw [← h s, hm]

theorem Leaves.fails {f : σ → β} {m : Attempt ε σ α} {s s' : σ} {e : ε} (h : Leaves f m)
    (hm : Fails m s e s') : f s' = f s := by
  rw [← h s, hm]

/-- From `P` the computation returns into `Q` or fails into `E`. -/
structure Spec (P : σ → Prop) (m : Attempt ε σ α) (Q : α → σ → Prop) (E : ε → σ → Prop) :
    Prop where
  returns : ∀ s a s', P s → Returns m s a s' → Q a s'
  fails : ∀ s e s', P s → Fails m s e s' → E e s'

section Rules

variable {P : σ → Prop} {Q Q' : α → σ → Prop} {R : β → σ → Prop} {E E' : ε → σ → Prop}
  {m : Attempt ε σ α} {f : α → Attempt ε σ β}

theorem spec_pure {a : α} (h : ∀ s, P s → Q a s) : Spec P (pure a : Attempt ε σ α) Q E where
  returns s _ _ hs hrun := by
    obtain ⟨rfl, rfl⟩ := returns_pure.mp hrun
    exact h _ hs
  fails _ _ _ _ hrun := (fails_pure hrun).elim

theorem spec_bind (hm : Spec P m Q E) (hf : ∀ a, Spec (Q a) (f a) R E) : Spec P (m >>= f) R E where
  returns s b s' hs hrun := by
    obtain ⟨a, s₁, hfirst, hrest⟩ := returns_bind.mp hrun
    exact (hf a).returns _ _ _ (hm.returns _ _ _ hs hfirst) hrest
  fails s e s' hs hrun := by
    rcases fails_bind.mp hrun with hfirst | ⟨a, s₁, hfirst, hrest⟩
    · exact hm.fails _ _ _ hs hfirst
    · exact (hf a).fails _ _ _ (hm.returns _ _ _ hs hfirst) hrest

theorem spec_get {Q : σ → σ → Prop} (h : ∀ s, P s → Q s s) :
    Spec P (get : Attempt ε σ σ) Q E where
  returns s _ _ hs hrun := by
    obtain ⟨rfl, rfl⟩ := returns_get.mp hrun
    exact h _ hs
  fails _ _ _ _ hrun := (fails_get hrun).elim

theorem spec_modify {g : σ → σ} {Q : Unit → σ → Prop} (h : ∀ s, P s → Q () (g s)) :
    Spec P (modify g : Attempt ε σ Unit) Q E where
  returns s _ _ hs hrun := by
    obtain rfl := returns_modify.mp hrun
    exact h _ hs
  fails _ _ _ _ hrun := (fails_modify hrun).elim

theorem spec_throw {e : ε} (h : ∀ s, P s → E e s) :
    Spec P (throw e : Attempt ε σ α) Q E where
  returns _ _ _ _ hrun := (returns_throw hrun).elim
  fails _ _ _ hs hrun := by
    obtain ⟨rfl, rfl⟩ := fails_throw.mp hrun
    exact h _ hs

theorem Spec.weaken (hm : Spec P m Q E) (hQ : ∀ a s, Q a s → Q' a s) (hE : ∀ e s, E e s → E' e s) :
    Spec P m Q' E' where
  returns s a s' hs hrun := hQ _ _ (hm.returns s a s' hs hrun)
  fails s e s' hs hrun := hE _ _ (hm.fails s e s' hs hrun)

theorem Spec.strengthen {P' : σ → Prop} (hm : Spec P m Q E) (hP : ∀ s, P' s → P s) :
    Spec P' m Q E where
  returns s a s' hs hrun := hm.returns s a s' (hP s hs) hrun
  fails s e s' hs hrun := hm.fails s e s' (hP s hs) hrun

/-- The state that the computation leaves, whatever its outcome. -/
def after (m : Attempt ε σ α) (s : σ) : σ := (m.run.run s).2

theorem Spec.after {I : σ → Prop} {s : σ} (hm : Spec P m (fun _ => I) fun _ => I) (hs : P s) :
    I (after m s) := by
  rcases returns_or_fails m s with ⟨a, s', hrun⟩ | ⟨e, s', hrun⟩
  · rw [Fallible.after, hrun]
    exact hm.returns _ _ _ hs hrun
  · rw [Fallible.after, hrun]
    exact hm.fails _ _ _ hs hrun

theorem spec_exists {ι : Sort*} {P : ι → σ → Prop} (h : ∀ i, Spec (P i) m Q E) :
    Spec (fun s => ∃ i, P i s) m Q E where
  returns s a s' hs hrun := by
    obtain ⟨i, hi⟩ := hs
    exact (h i).returns _ _ _ hi hrun
  fails s e s' hs hrun := by
    obtain ⟨i, hi⟩ := hs
    exact (h i).fails _ _ _ hi hrun

theorem spec_fact {p : Prop} (h : p → Spec P m Q E) : Spec (fun s => p ∧ P s) m Q E where
  returns s a s' hs hrun := (h hs.1).returns s a s' hs.2 hrun
  fails s e s' hs hrun := (h hs.1).fails s e s' hs.2 hrun

theorem spec_ite {p : Prop} [Decidable p] {m' : Attempt ε σ α}
    (hyes : p → Spec P m Q E) (hno : ¬ p → Spec P m' Q E) :
    Spec P (if p then m else m') Q E := by
  by_cases h : p
  · rw [if_pos h]
    exact hyes h
  · rw [if_neg h]
    exact hno h

theorem spec_whenever {p : Prop} [Decidable p] {m : Attempt ε σ Unit} {Q : Unit → σ → Prop}
    (hyes : p → Spec P m Q E) (hno : ¬ p → ∀ s, P s → Q () s) : Spec P (whenever p m) Q E :=
  spec_ite hyes fun h => spec_pure (hno h)

theorem spec_zoom {view : τ → σ} {put : σ → τ → τ} {P' : τ → Prop} {Q' : α → τ → Prop}
    {E' : ε → τ → Prop} (h : ∀ t, P' t → Spec (· = view t) m (fun a s => Q' a (put s t))
      fun e s => E' e (put s t)) : Spec P' (zoom view put m) Q' E' where
  returns t a t' ht hrun := by
    obtain ⟨s', hm, rfl⟩ := returns_zoom.mp hrun
    exact (h t ht).returns _ _ _ rfl hm
  fails t e t' ht hrun := by
    obtain ⟨s', hm, rfl⟩ := fails_zoom.mp hrun
    exact (h t ht).fails _ _ _ rfl hm

theorem spec_handled {Q : α → σ → Prop} {F : ε → σ → Prop} {ok : α → Attempt ε σ β}
    {error : ε → Attempt ε σ β} (hm : Spec P m Q F) (hok : ∀ a, Spec (Q a) (ok a) R E)
    (herror : ∀ e, Spec (F e) (error e) R E) : Spec P (handled m ok error) R E where
  returns s b s' hs hrun := by
    rcases returns_or_fails m s with ⟨a, s₁, hfirst⟩ | ⟨e, s₁, hfirst⟩
    · exact (hok a).returns _ _ _ (hm.returns _ _ _ hs hfirst) (hfirst.run_handled.symm.trans hrun)
    · exact (herror e).returns _ _ _ (hm.fails _ _ _ hs hfirst) (hfirst.run_handled.symm.trans hrun)
  fails s e' s' hs hrun := by
    rcases returns_or_fails m s with ⟨a, s₁, hfirst⟩ | ⟨e, s₁, hfirst⟩
    · exact (hok a).fails _ _ _ (hm.returns _ _ _ hs hfirst) (hfirst.run_handled.symm.trans hrun)
    · exact (herror e).fails _ _ _ (hm.fails _ _ _ hs hfirst) (hfirst.run_handled.symm.trans hrun)

theorem spec_onFailure {undo : σ → σ} (hm : Spec P m Q fun e s => E e (undo s)) :
    Spec P (onFailure m undo) Q E :=
  spec_handled hm (fun _ => spec_pure fun _ hs => hs) fun e =>
    spec_bind (Q := fun _ => E e) (spec_modify fun _ hs => hs) fun _ => spec_throw fun _ hs => hs

/-- A loop over the items of a list keeps an invariant on those done so far. -/
theorem spec_forM {γ : Type} {f : γ → Attempt ε σ PUnit} {I : List γ → σ → Prop}
    (items : List γ) (h : ∀ done item rest, items = done ++ item :: rest →
      Spec (I done) (f item) (fun _ => I (done ++ [item])) E) :
    Spec (I []) (items.forM f) (fun _ => I items) E := by
  suffices hloop : ∀ rest done, items = done ++ rest →
      Spec (I done) (rest.forM f) (fun _ => I items) E from hloop items [] rfl
  intro rest
  induction rest with
  | nil =>
      intro done hdone
      rw [List.append_nil] at hdone
      subst hdone
      exact spec_pure fun _ hs => hs
  | cons item rest ih =>
      intro done hdone
      exact spec_bind (h done item rest hdone) fun _ => ih (done ++ [item]) (by simp [hdone])

/-- A counting loop keeps an invariant on the counter. -/
theorem spec_forM_range {f : Nat → Attempt ε σ PUnit} {I : Nat → σ → Prop} (n : Nat)
    (h : ∀ k < n, Spec (I k) (f k) (fun _ => I (k + 1)) E) :
    Spec (I 0) ((List.range n).forM f) (fun _ => I n) E := by
  have hloop := spec_forM (I := fun done => I done.length) (E := E) (f := f) (List.range n) ?_
  · simpa using hloop
  · intro done item rest hsplit
    have hlength := congrArg List.length hsplit
    have hitem : item = done.length := by
      have hget := congrArg (fun l : List Nat => l[done.length]?) hsplit
      simp at hlength
      simpa [List.getElem?_range (show done.length < n by omega)] using hget.symm
    subst hitem
    have hlt : done.length < n := by
      simp at hlength
      omega
    simpa using h _ hlt

end Rules

/-- Whatever its outcome, the computation keeps an invariant. -/
def Keeps (I : σ → Prop) (m : Attempt ε σ α) : Prop := Spec I m (fun _ => I) fun _ => I

section Keeps

variable {I : σ → Prop} {m : Attempt ε σ α} {f : α → Attempt ε σ β}

theorem keeps_pure (a : α) : Keeps I (pure a : Attempt ε σ α) := spec_pure fun _ hs => hs

theorem keeps_throw (e : ε) : Keeps I (throw e : Attempt ε σ α) := spec_throw fun _ hs => hs

theorem Keeps.bind (hm : Keeps I m) (hf : ∀ a, Keeps I (f a)) : Keeps I (m >>= f) :=
  spec_bind hm hf

theorem keeps_get {f : σ → Attempt ε σ β} (hf : ∀ s, Keeps I (f s)) : Keeps I (get >>= f) :=
  spec_bind (spec_get fun _ hs => hs) hf

theorem keeps_modify {g : σ → σ} (hg : ∀ s, I s → I (g s)) :
    Keeps I (modify g : Attempt ε σ Unit) :=
  spec_modify hg

theorem keeps_whenever {p : Prop} [Decidable p] {m : Attempt ε σ Unit} (hm : Keeps I m) :
    Keeps I (whenever p m) :=
  spec_whenever (fun _ => hm) fun _ _ hs => hs

theorem Keeps.handled {ok : α → Attempt ε σ β} {error : ε → Attempt ε σ β} (hm : Keeps I m)
    (hok : ∀ a, Keeps I (ok a)) (herror : ∀ e, Keeps I (error e)) :
    Keeps I (handled m ok error) :=
  spec_handled hm hok herror

end Keeps

end Fallible
