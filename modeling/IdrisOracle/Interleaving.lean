import Mathlib.Data.List.Basic
import Mathlib.Tactic.Common

/-! Programs that make calls, and the interleavings of several of them over one state. -/

namespace Interleaving

/-- A program that returns or makes a call and goes on with the answer. -/
inductive Program (C : Type) (R : C → Type) (α : Type) where
  | done (a : α)
  | call (c : C) (next : R c → Program C R α)

namespace Program

variable {C D : Type} {R : C → Type} {S : D → Type} {α β : Type}

def bind : Program C R α → (α → Program C R β) → Program C R β
  | .done a, f => f a
  | .call c next, f => .call c fun r => (next r).bind f

instance instMonad : Monad (Program C R) where
  pure := .done
  bind := bind

@[simp] theorem pure_eq_done (a : α) : (Pure.pure a : Program C R α) = .done a := rfl

@[simp] theorem done_bind (a : α) (f : α → Program C R β) : Program.done a >>= f = f a := rfl

@[simp] theorem call_bind (c : C) (next : R c → Program C R α) (f : α → Program C R β) :
    Program.call c next >>= f = .call c fun r => next r >>= f := rfl

theorem bind_done (p : Program C R α) : p >>= Program.done = p := by
  induction p with
  | done a => rfl
  | call c next ih => exact congrArg (Program.call c) (funext ih)

theorem bind_bind {γ : Type} (p : Program C R α) (f : α → Program C R β)
    (g : β → Program C R γ) : p >>= f >>= g = p >>= fun a => f a >>= g := by
  induction p with
  | done a => rfl
  | call c next ih => exact congrArg (Program.call c) (funext ih)

instance instLawfulMonad : LawfulMonad (Program C R) :=
  LawfulMonad.mk' (Program C R) bind_done (fun _ _ => rfl) bind_bind

/-- The program with its calls among those of a larger signature. -/
def embed (f : C → D) : Program C (fun c => S (f c)) α → Program D S α
  | .done a => .done a
  | .call c next => .call (f c) fun r => (next r).embed f

/-- After these calls the program goes on as another one. -/
inductive Path : Program C R α → List (Σ c, R c) → Program C R α → Prop
  | nil {p : Program C R α} : Path p [] p
  | cons {c : C} {next : R c → Program C R α} {r : R c} {calls : List (Σ c, R c)}
      {p : Program C R α} (h : Path (next r) calls p) : Path (.call c next) (⟨c, r⟩ :: calls) p

variable {p q : Program C R α} {f : α → Program C R β} {calls : List (Σ c, R c)}

theorem path_done {a : α} (h : Path (.done a) calls p) : calls = [] ∧ p = .done a := by
  cases h
  exact ⟨rfl, rfl⟩

/-- A path of a sequence stays in its first part or goes through it. -/
theorem Path.of_bind {q : Program C R β} (h : Path (p >>= f) calls q) :
    (∃ p', Path p calls p') ∨
      ∃ a first rest, calls = first ++ rest ∧ Path p first (.done a) ∧ Path (f a) rest q := by
  induction p generalizing calls with
  | done a => exact .inr ⟨a, [], calls, rfl, .nil, h⟩
  | call c next ih =>
      cases h with
      | nil => exact .inl ⟨_, .nil⟩
      | cons h =>
          rcases ih _ h with ⟨p', hpath⟩ | ⟨a, first, rest, rfl, hfirst, hrest⟩
          · exact .inl ⟨p', .cons hpath⟩
          · exact .inr ⟨a, _, rest, rfl, .cons hfirst, hrest⟩

/-- On every path the calls have the property. -/
def Makes (P : C → Prop) (p : Program C R α) : Prop :=
  ∀ calls q, Path p calls q → ∀ call ∈ calls, P call.1

variable {P : C → Prop}

theorem makes_done (a : α) : Makes P (.done a : Program C R α) := by
  intro calls q h call hcall
  obtain ⟨rfl, -⟩ := path_done h
  cases hcall

theorem makes_call {c : C} {next : R c → Program C R α} (hc : P c)
    (hnext : ∀ r, Makes P (next r)) : Makes P (.call c next) := by
  intro calls q h call hcall
  cases h with
  | nil => cases hcall
  | cons h =>
      rcases List.mem_cons.mp hcall with rfl | hcall
      · exact hc
      · exact hnext _ _ _ h call hcall

theorem Makes.bind (hp : Makes P p) (hf : ∀ a, Makes P (f a)) : Makes P (p >>= f) := by
  intro calls q h call hcall
  rcases h.of_bind with ⟨p', hpath⟩ | ⟨a, first, rest, rfl, hfirst, hrest⟩
  · exact hp _ _ hpath call hcall
  · rcases List.mem_append.mp hcall with hcall | hcall
    · exact hp _ _ hfirst call hcall
    · exact hf a _ _ hrest call hcall

theorem makes_embed {P : D → Prop} (g : C → D) (h : ∀ c, P (g c))
    (p : Program C (fun c => S (g c)) α) : Makes P (p.embed g : Program D S α) := by
  induction p with
  | done a => exact makes_done a
  | call c next ih => exact makes_call (h c) ih

end Program

open Program

variable {ι σ C : Type} {R : C → Type} {α : Type}

/-- The state the programs share, and what is left of each. -/
structure Config (ι σ C : Type) (R : C → Type) (α : Type) where
  shared : σ
  program : ι → Program C R α

/-- A call of one of the programs, with its answer. -/
structure Event (ι C : Type) (R : C → Type) where
  party : ι
  call : C
  answer : R call

variable {performs : ι → σ → (c : C) → R c → σ → Prop}

/-- The calls that take the shared state from one value to another when one party makes them. -/
inductive Serves (performs : ι → σ → (c : C) → R c → σ → Prop) (party : ι) :
    σ → List (Σ c, R c) → σ → Prop
  | nil {shared : σ} : Serves performs party shared [] shared
  | cons {shared shared₁ shared₂ : σ} {c : C} {r : R c} {calls : List (Σ c, R c)}
      (hperforms : performs party shared c r shared₁)
      (hrest : Serves performs party shared₁ calls shared₂) :
      Serves performs party shared (⟨c, r⟩ :: calls) shared₂

theorem Serves.append {party : ι} {shared shared₁ shared₂ : σ} {first rest : List (Σ c, R c)}
    (hfirst : Serves performs party shared first shared₁)
    (hrest : Serves performs party shared₁ rest shared₂) :
    Serves performs party shared (first ++ rest) shared₂ := by
  induction hfirst with
  | nil => exact hrest
  | cons hperforms _ ih => exact .cons hperforms (ih hrest)

variable [DecidableEq ι]

/-- The next call of one program is performed. -/
inductive Step (performs : ι → σ → (c : C) → R c → σ → Prop) :
    Config ι σ C R α → Event ι C R → Config ι σ C R α → Prop
  | call {s : Config ι σ C R α} {party : ι} {c : C} {next : R c → Program C R α} {r : R c}
      {shared : σ} (hprogram : s.program party = .call c next)
      (hperforms : performs party s.shared c r shared) :
      Step performs s ⟨party, c, r⟩ ⟨shared, Function.update s.program party (next r)⟩

/-- Some interleaving of the programs performs these calls. -/
inductive Run (performs : ι → σ → (c : C) → R c → σ → Prop) :
    Config ι σ C R α → List (Event ι C R) → Config ι σ C R α → Prop
  | nil {s : Config ι σ C R α} : Run performs s [] s
  | cons {s t u : Config ι σ C R α} {event : Event ι C R} {events : List (Event ι C R)}
      (hstep : Step performs s event t) (hrest : Run performs t events u) :
      Run performs s (event :: events) u

/-- The calls of one program. -/
def callsOf (party : ι) (events : List (Event ι C R)) : List (Σ c, R c) :=
  events.filterMap fun event =>
    if event.party = party then some ⟨event.call, event.answer⟩ else none

variable {s t : Config ι σ C R α} {events : List (Event ι C R)}

theorem callsOf_append (party : ι) (first rest : List (Event ι C R)) :
    callsOf party (first ++ rest) = callsOf party first ++ callsOf party rest :=
  List.filterMap_append

theorem callsOf_self (party : ι) (c : C) (r : R c) (events : List (Event ι C R)) :
    callsOf party (⟨party, c, r⟩ :: events) = ⟨c, r⟩ :: callsOf party events := by
  simp [callsOf]

theorem callsOf_other {party party' : ι} (h : party' ≠ party) (c : C) (r : R c)
    (events : List (Event ι C R)) :
    callsOf party (⟨party', c, r⟩ :: events) = callsOf party events := by
  simp [callsOf, h]

/-- Whatever the others do, the calls of a program are a path of it. -/
theorem Run.path (h : Run performs s events t) (party : ι) :
    Path (s.program party) (callsOf party events) (t.program party) := by
  induction h with
  | nil => exact .nil
  | @cons s t u event events hstep _ ih =>
      cases hstep with
      | @call party' c next r shared hprogram _ =>
          dsimp only at ih
          by_cases hparty : party' = party
          · subst hparty
            rw [callsOf_self, hprogram]
            rw [Function.update_self] at ih
            exact .cons ih
          · rw [callsOf_other hparty]
            rwa [Function.update_of_ne (Ne.symm hparty)] at ih

theorem Run.trans {u : Config ι σ C R α} {events' : List (Event ι C R)}
    (hst : Run performs s events t) (htu : Run performs t events' u) :
    Run performs s (events ++ events') u := by
  induction hst with
  | nil => exact htu
  | cons hstep _ ih => exact .cons hstep (ih htu)

/-- One program can go along a path of it while the others stand still. -/
theorem Run.of_path {party : ι} {calls : List (Σ c, R c)} {p : Program C R α} {shared : σ}
    (hpath : Path (s.program party) calls p)
    (hserves : Serves performs party s.shared calls shared) :
    Run performs s (calls.map fun call => ⟨party, call.1, call.2⟩)
      ⟨shared, Function.update s.program party p⟩ := by
  generalize hprogram : s.program party = q at hpath
  generalize hshared : s.shared = start at hserves
  induction hpath generalizing s start with
  | nil =>
      cases hserves
      rw [← hprogram, Function.update_eq_self, ← hshared]
      exact .nil
  | @cons c next r calls p _ ih =>
      cases hserves with
      | @cons _ shared₁ _ _ _ _ hperforms hrest =>
          subst hshared
          have hstep : Step performs s ⟨party, c, r⟩
              ⟨shared₁, Function.update s.program party (next r)⟩ := .call hprogram hperforms
          have hrun := ih (s := ⟨shared₁, Function.update s.program party (next r)⟩)
            (Function.update_self ..) shared₁ rfl hrest
          rw [Function.update_idem] at hrun
          exact .cons hstep hrun

/-- What every call keeps holds of the shared state after every run. -/
theorem Run.invariant {I : σ → Prop}
    (hperforms : ∀ party s c r s', I s → performs party s c r s' → I s')
    (h : Run performs s events t) (hstart : I s.shared) : I t.shared := by
  induction h with
  | nil => exact hstart
  | cons hstep _ ih =>
      cases hstep with
      | call _ hcall => exact ih (hperforms _ _ _ _ _ hstart hcall)

/-- A run goes through the states before and after each of its calls. -/
theorem Run.split {first rest : List (Event ι C R)} {event : Event ι C R}
    (h : Run performs s (first ++ event :: rest) t) :
    ∃ u v, Run performs s first u ∧ Step performs u event v ∧ Run performs v rest t := by
  induction first generalizing s with
  | nil =>
      cases h with
      | cons hstep hrest => exact ⟨s, _, .nil, hstep, hrest⟩
  | cons event' first ih =>
      cases h with
      | cons hstep hrest =>
          obtain ⟨u, v, hfirst, hevent, hlast⟩ := ih hrest
          exact ⟨u, v, .cons hstep hfirst, hevent, hlast⟩

/-- A call of a program splits the run where it is made. -/
theorem split_of_callsOf {party : ι} {before after : List (Σ c, R c)} {c : C} {r : R c}
    (h : callsOf party events = before ++ ⟨c, r⟩ :: after) :
    ∃ first rest, events = first ++ ⟨party, c, r⟩ :: rest ∧ callsOf party first = before := by
  obtain ⟨first, tail, rfl, hfirst, htail⟩ := List.filterMap_eq_append_iff.mp h
  obtain ⟨skipped, event, rest, rfl, hskipped, hevent, -⟩ := List.filterMap_eq_cons_iff.mp htail
  have hnone : callsOf party skipped = [] := List.filterMap_eq_nil_iff.mpr hskipped
  refine ⟨first ++ skipped, rest, ?_, ?_⟩
  · by_cases hparty : event.party = party
    · rw [if_pos hparty] at hevent
      cases hevent
      subst hparty
      simp
    · rw [if_neg hparty] at hevent
      cases hevent
  · rw [callsOf_append, hnone, List.append_nil]
    exact hfirst

end Interleaving
