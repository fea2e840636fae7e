import IdrisOracle.HandlePool
import Mathlib.Algebra.BigOperators.Group.Multiset.Basic
import Mathlib.Data.List.ReduceOption
import Mathlib.Logic.Relation

/-! The OCI error handles of an environment under any interleaving of its public calls. -/

namespace IdrisOracle

variable {H : Type}

/-- Where a public call is with its error handle. -/
inductive PublicCall (H : Type) where
  | running (handle : Option H)
  | allocating

namespace PublicCall

def handle : PublicCall H → Option H
  | running handle => handle
  | allocating => none

/-- How many error handles the call has or is about to have. -/
def demand : PublicCall H → Nat
  | running none => 0
  | running (some _) => 1
  | allocating => 1

/-- How `dpiError__initHandle` goes on from what the pool answered. -/
def acquired : Except DpiError (Option H) → PublicCall H
  | .ok (some h) => running (some h)
  | .ok none => allocating
  | .error _ => running none

theorem demand_le (call : PublicCall H) : call.demand ≤ 1 := by
  cases call with
  | running handle => cases handle <;> simp [demand]
  | allocating => exact Nat.le_refl 1

variable {rest : Multiset (PublicCall H)}

def heldBy (calls : Multiset (PublicCall H)) : Multiset H := calls.filterMap handle

def totalDemand (calls : Multiset (PublicCall H)) : Nat := (calls.map demand).sum

@[simp] theorem heldBy_running_none : heldBy (running none ::ₘ rest) = heldBy rest :=
  Multiset.filterMap_cons_none _ _ rfl

@[simp] theorem heldBy_running_some (h : H) :
    heldBy (running (some h) ::ₘ rest) = h ::ₘ heldBy rest :=
  Multiset.filterMap_cons_some handle (running (some h)) rest rfl

@[simp] theorem heldBy_allocating : heldBy (allocating ::ₘ rest) = heldBy rest :=
  Multiset.filterMap_cons_none _ _ rfl

@[simp] theorem totalDemand_cons (call : PublicCall H) :
    totalDemand (call ::ₘ rest) = call.demand + totalDemand rest := by
  simp [totalDemand]

theorem card_heldBy_le (calls : Multiset (PublicCall H)) :
    (heldBy calls).card ≤ totalDemand calls := by
  induction calls using Multiset.induction with
  | empty => exact Nat.le_refl 0
  | cons call rest ih =>
      cases call with
      | running handle => cases handle <;> simp [demand] <;> omega
      | allocating =>
          simp
          omega

theorem totalDemand_le (calls : Multiset (PublicCall H)) : totalDemand calls ≤ calls.card := by
  induction calls using Multiset.induction with
  | empty => exact Nat.le_refl 0
  | cons call rest ih =>
      have hcall := call.demand_le
      simp
      omega

end PublicCall

/-- The pool, the public calls under way, the error handles that OCI has allocated and how often
the pool had none to give. -/
structure ErrorHandles (H : Type) where
  pool : DpiHandlePool H
  calls : Multiset (PublicCall H)
  allocated : Multiset H
  misses : Nat

def dpiGenEndPublicFn : Option H → DpiHandlePool H → DpiHandlePool H
  | some h, pool => dpiHandlePoolRelease (some h) pool
  | none, pool => pool

namespace ErrorHandles

def initial : ErrorHandles H := ⟨dpiHandlePoolCreate, 0, 0, 0⟩

/-- A call asks the pool for a handle while `rest` are the other calls. -/
def acquire (granted : Bool) (rest : Multiset (PublicCall H)) (s : ErrorHandles H) :
    ErrorHandles H :=
  { s with
    pool := (dpiHandlePoolAcquire granted s.pool).2
    calls := .acquired (dpiHandlePoolAcquire granted s.pool).1 ::ₘ rest
    misses := if s.pool.acquirePos = s.pool.releasePos then s.misses + 1 else s.misses }

/-- One call goes on by what it does under the pool's mutex, or by one call of OCI. -/
inductive Step : ErrorHandles H → ErrorHandles H → Prop
  | start (s : ErrorHandles H) : Step s { s with calls := .running none ::ₘ s.calls }
  | acquire {s : ErrorHandles H} {rest : Multiset (PublicCall H)} (granted : Bool)
      (hcalls : s.calls = .running none ::ₘ rest) :
      Step s (s.acquire granted rest)
  | allocate {s : ErrorHandles H} {rest : Multiset (PublicCall H)} (h : H)
      (hcalls : s.calls = .allocating ::ₘ rest) (hnew : h ∉ s.allocated) :
      Step s { s with calls := .running (some h) ::ₘ rest, allocated := h ::ₘ s.allocated }
  | refuse {s : ErrorHandles H} {rest : Multiset (PublicCall H)}
      (hcalls : s.calls = .allocating ::ₘ rest) :
      Step s { s with calls := .running none ::ₘ rest }
  | finish {s : ErrorHandles H} {rest : Multiset (PublicCall H)} {handle : Option H}
      (hcalls : s.calls = .running handle ::ₘ rest) :
      Step s { s with pool := dpiGenEndPublicFn handle s.pool, calls := rest }

abbrev Run : ErrorHandles H → ErrorHandles H → Prop := Relation.ReflTransGen Step

def Reachable (s : ErrorHandles H) : Prop := Run initial s

variable {s t u v : ErrorHandles H} {k n : Nat}

def held (s : ErrorHandles H) : Multiset H := PublicCall.heldBy s.calls

def queued (s : ErrorHandles H) : Multiset H := s.pool.queued.reduceOption

/-- The handles that a call has or that the pool can still hand out. -/
def owned (s : ErrorHandles H) : Multiset H := s.held + s.queued

/-- How many handles there are or will be when the allocations under way succeed. -/
def inUse (s : ErrorHandles H) : Nat := PublicCall.totalDemand s.calls + s.pool.queued.length

/-- The pool queues no NULL. -/
def Filled (s : ErrorHandles H) : Prop := none ∉ s.pool.queued

theorem card_queued_le (s : ErrorHandles H) : s.queued.card ≤ s.pool.queued.length :=
  List.length_filterMap_le _ _

theorem card_queued (hs : s.Filled) : s.queued.card = s.pool.queued.length := by
  have hnone : s.pool.queued.filter Option.isNone = [] := by
    rw [List.filter_eq_nil_iff]
    intro x hx hx'
    rw [Option.isNone_iff_eq_none.mp hx'] at hx
    exact hs hx
  have hlength := s.pool.queued.length_eq_reduceOption_length_add_filter_none
  rw [hnone] at hlength
  exact hlength.symm

theorem card_owned_le (s : ErrorHandles H) : s.owned.card ≤ s.inUse := by
  have hheld : s.held.card ≤ _ := PublicCall.card_heldBy_le s.calls
  have hqueued := s.card_queued_le
  rw [owned, Multiset.card_add, inUse]
  omega

/-- The pool has counted its misses, in a counter of 32 bits. -/
def Counted (s : ErrorHandles H) : Prop := s.pool.numUsedSlots = UInt32.ofNat s.misses

/-- Neither the counter of the pool nor the number of its slots can have wrapped. -/
def Unwrapped (s : ErrorHandles H) : Prop := s.misses < 2 ^ 32 - 8

theorem Counted.toNat (hs : s.Counted) (hw : s.Unwrapped) :
    s.pool.numUsedSlots.toNat = s.misses := by
  rw [hs]
  refine UInt32.toNat_ofNat_of_lt' ?_
  rw [Unwrapped] at hw
  rw [UInt32.size]
  omega

/-- The pool has room for `k` handles more than are in use, and has missed as often. -/
structure Margin (k : Nat) (s : ErrorHandles H) : Prop where
  used : s.inUse + k ≤ s.misses
  slots : s.inUse + k ≤ s.pool.numSlots

/-- The last handle comes back to a pool that queues all others, and none is queued any more. -/
structure Loses (s t : ErrorHandles H) : Prop where
  queued : t.pool.queued = []
  numSlots : t.pool.numSlots = s.pool.numSlots
  allocated : t.allocated = s.allocated
  misses : t.misses = s.misses
  inUse : s.inUse = t.inUse + s.pool.numSlots
  owned : t.owned ≤ s.owned
  card : s.owned.card = t.owned.card + s.pool.numSlots

/-- A step that loses no handle. -/
structure Keeps (s t : ErrorHandles H) : Prop where
  inUse : t.inUse ≤ s.inUse ∨ t.pool.queued = []
  owned : t.owned = s.owned ∧ t.allocated = s.allocated ∨
    ∃ h, h ∉ s.allocated ∧ t.owned = h ::ₘ s.owned ∧ t.allocated = h ::ₘ s.allocated
  numSlots : s.pool.numSlots ≤ t.pool.numSlots
  misses : s.misses ≤ t.misses
  margin : ∀ k ≤ 8, t.Counted → t.Unwrapped → Margin k s → Margin k t

/-- Every step keeps the count. -/
theorem counted_step (hs : s.Counted) (h : Step s t) : t.Counted := by
  cases h with
  | start => exact hs
  | @acquire rest granted hcalls =>
      rw [Counted, acquire]
      by_cases hempty : s.pool.acquirePos = s.pool.releasePos
      · have hmissed := DpiHandlePool.acquire_empty granted
          (DpiHandlePool.queued_eq_nil.mpr hempty)
        rw [if_pos hempty, hmissed.numUsedSlots, hs, UInt32.ofNat_add]
        rfl
      · rw [if_neg hempty, dpiHandlePoolAcquire, if_pos hempty]
        exact hs
  | allocate => exact hs
  | refuse => exact hs
  | @finish rest handle hcalls =>
      cases handle with
      | some h => exact hs
      | none => exact hs

theorem keeps_acquire_empty {rest : Multiset (PublicCall H)} (granted : Bool)
    (hcalls : s.calls = .running none ::ₘ rest) (hqueued : s.pool.queued = []) :
    (s.acquire granted rest).Filled ∧ Keeps s (s.acquire granted rest) := by
  have hmissed := DpiHandlePool.acquire_empty granted hqueued
  have howned : (s.acquire granted rest).owned = s.owned := by
    rcases hmissed.outcome with ⟨hgot, -⟩ | ⟨hgot, -⟩ <;>
      simp [acquire, owned, held, queued, hcalls, hqueued, hmissed.queued, hgot,
        PublicCall.acquired]
  have hempty := DpiHandlePool.queued_eq_nil.mp hqueued
  have hmisses : (s.acquire granted rest).misses = s.misses + 1 := if_pos hempty
  refine ⟨?_, .inr hmissed.queued, .inl ⟨howned, rfl⟩, ?_, ?_, ?_⟩
  · simp [Filled, acquire, hmissed.queued]
  · rcases hmissed.outcome with ⟨-, hslots⟩ | ⟨-, ⟨-, hslots⟩ | hslots⟩ <;>
      simp [acquire, hslots]
  · rw [hmisses]
    exact Nat.le_succ _
  · intro k hk hcounted hunwrapped hmargin
    have hused := hmargin.used
    have hslots := hmargin.slots
    have hcount : (dpiHandlePoolAcquire granted s.pool).2.numUsedSlots.toNat = s.misses + 1 :=
      (hcounted.toNat hunwrapped).trans hmisses
    have hinUse : (s.acquire granted rest).inUse ≤ s.inUse + 1 := by
      have hdemand := (PublicCall.acquired (dpiHandlePoolAcquire granted s.pool).1).demand_le
      simp only [inUse, acquire, hmissed.queued, hqueued, hcalls, PublicCall.totalDemand_cons]
      omega
    refine ⟨by omega, ?_⟩
    rcases hmissed.outcome with ⟨hgot, hsame⟩ | ⟨-, ⟨hle, hsame⟩ | hgrown⟩
    · have hrefused : (s.acquire granted rest).inUse = s.inUse := by
        simp [inUse, acquire, hcalls, hqueued, hmissed.queued, hgot, PublicCall.acquired,
          PublicCall.demand]
      have hpool : (s.acquire granted rest).pool.numSlots = s.pool.numSlots := hsame
      omega
    · have hpool : (s.acquire granted rest).pool.numSlots = s.pool.numSlots := hsame
      omega
    · have hpool : (s.acquire granted rest).pool.numSlots = s.pool.numSlots + 8 := hgrown
      omega

theorem keeps_acquire_queued {rest : Multiset (PublicCall H)} {queue : List (Option H)} {h : H}
    (granted : Bool) (hs : s.Filled) (hcalls : s.calls = .running none ::ₘ rest)
    (hqueued : s.pool.queued = some h :: queue) :
    (s.acquire granted rest).Filled ∧ Keeps s (s.acquire granted rest) := by
  obtain ⟨after, hacquire, hqueue, hslots, -⟩ := DpiHandlePool.acquire_queued granted hqueued
  have hmisses : (s.acquire granted rest).misses = s.misses := by
    refine if_neg fun hempty => ?_
    rw [DpiHandlePool.queued_eq_nil.mpr hempty] at hqueued
    cases hqueued
  have hinUse : (s.acquire granted rest).inUse = s.inUse := by
    simp [acquire, inUse, hacquire, hcalls, hqueued, hqueue, PublicCall.acquired,
      PublicCall.demand]
    omega
  have howned : (s.acquire granted rest).owned = s.owned := by
    simp [acquire, owned, held, queued, hacquire, hcalls, hqueued, hqueue, PublicCall.acquired,
      List.reduceOption_cons_of_some, ← Multiset.cons_coe]
  refine ⟨?_, .inl (Nat.le_of_eq hinUse), .inl ⟨howned, rfl⟩, ?_, hmisses.ge, ?_⟩
  · intro hnone
    refine hs ?_
    rw [hqueued]
    simpa [acquire, hacquire, hqueue] using hnone
  · simp [acquire, hacquire, hslots]
  · intro k _ _ _ hmargin
    refine ⟨?_, ?_⟩
    · rw [hinUse, hmisses]
      exact hmargin.used
    · rw [hinUse]
      simpa [acquire, hacquire, hslots] using hmargin.slots

theorem keeps_acquire {rest : Multiset (PublicCall H)} (granted : Bool) (hs : s.Filled)
    (hcalls : s.calls = .running none ::ₘ rest) :
    (s.acquire granted rest).Filled ∧ Keeps s (s.acquire granted rest) := by
  cases hqueued : s.pool.queued with
  | nil => exact keeps_acquire_empty granted hcalls hqueued
  | cons x queue =>
      cases x with
      | none =>
          refine absurd ?_ hs
          simp [hqueued]
      | some h => exact keeps_acquire_queued granted hs hcalls hqueued

/-- A call that ends gives its handle back to the queue, or loses it with all that are queued. -/
theorem keeps_or_loses_finish {rest : Multiset (PublicCall H)} {h : H} (hs : s.Filled)
    (hcalls : s.calls = .running (some h) ::ₘ rest) :
    let t : ErrorHandles H := { s with pool := dpiHandlePoolRelease (some h) s.pool, calls := rest }
    t.Filled ∧ (Keeps s t ∨ Loses s t) := by
  intro t
  rcases DpiHandlePool.release_cases (some h) s.pool with ⟨-, hqueued⟩ | ⟨hfull, hqueued⟩
  · have hinUse : t.inUse = s.inUse := by
      simp [t, inUse, hcalls, hqueued, PublicCall.demand]
      omega
    have howned : t.owned = s.owned := by
      simp only [t, owned, held, queued, hcalls, hqueued, List.reduceOption_append,
        PublicCall.heldBy_running_some, List.reduceOption_cons_of_some, List.reduceOption_nil,
        ← Multiset.coe_add, Multiset.coe_singleton]
      rw [← Multiset.singleton_add, ← Multiset.add_assoc, Multiset.add_comm {h},
        add_right_comm]
    refine ⟨?_, .inl ⟨.inl (Nat.le_of_eq hinUse), .inl ⟨howned, rfl⟩, ?_, Nat.le_refl _, ?_⟩⟩
    · simpa [Filled, t, hqueued] using hs
    · simp [t]
    · intro k _ _ _ hmargin
      refine ⟨?_, ?_⟩
      · rw [hinUse]
        simpa [t] using hmargin.used
      · rw [hinUse]
        simpa [t] using hmargin.slots
  · have hcard := card_queued hs
    refine ⟨?_, .inr ⟨hqueued, DpiHandlePool.numSlots_release, rfl, rfl, ?_, ?_, ?_⟩⟩
    · simp [Filled, t, hqueued]
    · simp [t, inUse, hcalls, hqueued, PublicCall.demand]
      omega
    · have hheld : t.held ≤ s.held := by
        simp only [t, held, hcalls, PublicCall.heldBy_running_some]
        exact Multiset.le_cons_self _ _
      have hnone : t.queued = 0 := by simp [t, queued, hqueued]
      rw [owned, owned, hnone]
      exact add_le_add hheld (Multiset.zero_le _)
    · rw [owned, owned, Multiset.card_add, Multiset.card_add, hcard]
      simp [t, held, queued, hcalls, hqueued]
      omega

theorem keeps_of_pool_eq (hpool : t.pool = s.pool) (hmisses : t.misses = s.misses)
    (hdemand : PublicCall.totalDemand t.calls ≤ PublicCall.totalDemand s.calls)
    (howned : t.owned = s.owned ∧ t.allocated = s.allocated ∨
      ∃ h, h ∉ s.allocated ∧ t.owned = h ::ₘ s.owned ∧ t.allocated = h ::ₘ s.allocated) :
    Keeps s t := by
  have hinUse : t.inUse ≤ s.inUse := by
    rw [inUse, inUse, hpool]
    exact Nat.add_le_add_right hdemand _
  refine ⟨.inl hinUse, howned, ?_, hmisses.ge, ?_⟩
  · rw [hpool]
  · rintro k - - - ⟨hused, hslots⟩
    refine ⟨by omega, ?_⟩
    rw [hpool]
    omega

/-- What one step does to the handles. -/
theorem step_cases (hs : s.Filled) (h : Step s t) : t.Filled ∧ (Keeps s t ∨ Loses s t) := by
  cases h with
  | start =>
      refine ⟨hs, .inl (keeps_of_pool_eq rfl rfl ?_ (.inl ⟨?_, rfl⟩))⟩
      · simp [PublicCall.demand]
      · simp [owned, held, queued]
  | acquire granted hcalls =>
      obtain ⟨hfilled, hkeeps⟩ := keeps_acquire granted hs hcalls
      exact ⟨hfilled, .inl hkeeps⟩
  | allocate h hcalls hnew =>
      refine ⟨hs, .inl (keeps_of_pool_eq rfl rfl ?_ (.inr ⟨h, hnew, ?_, rfl⟩))⟩
      · simp [hcalls, PublicCall.demand]
      · simp [owned, held, queued, hcalls]
  | refuse hcalls =>
      refine ⟨hs, .inl (keeps_of_pool_eq rfl rfl ?_ (.inl ⟨?_, rfl⟩))⟩
      · simp [hcalls, PublicCall.demand]
      · simp [owned, held, queued, hcalls]
  | @finish rest handle hcalls =>
      cases handle with
      | some h => exact keeps_or_loses_finish hs hcalls
      | none =>
          refine ⟨hs, .inl (keeps_of_pool_eq rfl rfl ?_ (.inl ⟨?_, rfl⟩))⟩
          · simp [hcalls, PublicCall.demand]
          · simp [owned, held, queued, hcalls, dpiGenEndPublicFn]

theorem misses_step (hs : s.Filled) (h : Step s t) : s.misses ≤ t.misses := by
  obtain ⟨-, hkeeps | hloses⟩ := step_cases hs h
  · exact hkeeps.misses
  · exact hloses.misses.ge

/-- What every state of a run satisfies. -/
structure Sound (s : ErrorHandles H) : Prop where
  filled : s.Filled
  distinct : s.allocated.Nodup
  owned : s.owned ≤ s.allocated
  slots : 8 ≤ s.pool.numSlots
  counted : s.Counted

theorem sound_initial : Sound (initial : ErrorHandles H) where
  filled := by simp [Filled, initial]
  distinct := Multiset.nodup_zero
  owned := by simp [ErrorHandles.owned, held, queued, initial, PublicCall.heldBy]
  slots := Nat.le_refl 8
  counted := rfl

theorem sound_step (hs : Sound s) (h : Step s t) : Sound t := by
  have hcounted := counted_step hs.counted h
  obtain ⟨hfilled, hkeeps | hloses⟩ := step_cases hs.filled h
  · refine ⟨hfilled, ?_, ?_, Nat.le_trans hs.slots hkeeps.numSlots, hcounted⟩
    · rcases hkeeps.owned with ⟨-, hallocated⟩ | ⟨h, hnew, -, hallocated⟩
      · rw [hallocated]
        exact hs.distinct
      · rw [hallocated]
        exact Multiset.nodup_cons.mpr ⟨hnew, hs.distinct⟩
    · rcases hkeeps.owned with ⟨howned, hallocated⟩ | ⟨h, -, howned, hallocated⟩
      · rw [howned, hallocated]
        exact hs.owned
      · rw [howned, hallocated]
        exact Multiset.cons_le_cons h hs.owned
  · refine ⟨hfilled, ?_, ?_, ?_, hcounted⟩
    · rw [hloses.allocated]
      exact hs.distinct
    · rw [hloses.allocated]
      exact le_trans hloses.owned hs.owned
    · rw [hloses.numSlots]
      exact hs.slots

theorem Sound.run (hs : Sound s) (h : Run s t) : Sound t := by
  induction h with
  | refl => exact hs
  | tail _ hstep ih => exact sound_step ih hstep

theorem Unwrapped.before (ht : t.Unwrapped) (hle : s.misses ≤ t.misses) : s.Unwrapped :=
  Nat.lt_of_le_of_lt hle ht

/-- While the counter has not wrapped, the pool has room for all handles. -/
theorem margin_step (hs : Sound s) (hm : Margin 0 s) (h : Step s t) (ht : t.Unwrapped) :
    Margin 0 t := by
  obtain ⟨-, hkeeps | hloses⟩ := step_cases hs.filled h
  · exact hkeeps.margin 0 (Nat.zero_le 8) (counted_step hs.counted h) ht hm
  · have hused := hm.used
    have hslots := hm.slots
    have hinUse := hloses.inUse
    have hmisses := hloses.misses
    have hsame := hloses.numSlots
    constructor <;> omega

theorem margin_initial : Margin 0 (initial : ErrorHandles H) := by
  constructor <;> simp [inUse, initial, PublicCall.totalDemand]

theorem margin_reachable (h : Reachable s) (hw : s.Unwrapped) : Margin 0 s := by
  induction h with
  | refl => exact margin_initial
  | tail hrun hstep ih =>
      have hs := sound_initial.run hrun
      exact margin_step hs (ih (hw.before (misses_step hs.filled hstep))) hstep hw

theorem Loses.unused (hl : Loses s t) (hm : Margin 0 s) : t.inUse = 0 := by
  have hinUse := hl.inUse
  have hslots := hm.slots
  omega

theorem Loses.nothing_owned (hl : Loses s t) (hm : Margin 0 s) : t.owned = 0 := by
  have hcard := t.card_owned_le
  rw [hl.unused hm] at hcard
  exact Multiset.card_eq_zero.mp (Nat.le_zero.mp hcard)

/-- After a loss more room is left than any later queue can fill. -/
theorem Loses.margin (hl : Loses s t) (hs : Sound s) (hm : Margin 0 s) : Margin 8 t := by
  have hzero := hl.unused hm
  have hinUse := hl.inUse
  have hused := hm.used
  have hslots := hs.slots
  have hmisses := hl.misses
  have hsame := hl.numSlots
  constructor <;> omega

theorem Loses.not_margin (hl : Loses s t) (hm : Margin 8 s) : False := by
  have hinUse := hl.inUse
  have hslots := hm.slots
  omega

theorem margin_run (hs : Sound s) (hm : Margin 8 s) (h : Run s t) (ht : t.Unwrapped) :
    Margin 8 t := by
  induction h with
  | refl => exact hm
  | tail hrun hstep ih =>
      have hmid := hs.run hrun
      have hbefore := ih (ht.before (misses_step hmid.filled hstep))
      obtain ⟨-, hkeeps | hloses⟩ := step_cases hmid.filled hstep
      · exact hkeeps.margin 8 (Nat.le_refl 8) (counted_step hmid.counted hstep) ht hbefore
      · exact (hloses.not_margin hbefore).elim

/-- Until handles are lost, the calls have or can acquire all that OCI has allocated. -/
def Accounted (s : ErrorHandles H) : Prop := s.owned = s.allocated ∨ Margin 8 s

theorem Keeps.owned_eq (hk : Keeps s t) (h : s.owned = s.allocated) : t.owned = t.allocated := by
  rcases hk.owned with ⟨howned, hallocated⟩ | ⟨x, -, howned, hallocated⟩
  · rw [howned, hallocated, h]
  · rw [howned, hallocated, h]

theorem Keeps.owned_le (hk : Keeps s t) : s.owned ≤ t.owned := by
  rcases hk.owned with ⟨howned, -⟩ | ⟨x, -, howned, -⟩
  · rw [howned]
  · rw [howned]
    exact Multiset.le_cons_self _ _

theorem accounted_step (hs : Sound s) (hm : Margin 0 s) (ha : Accounted s) (h : Step s t)
    (ht : t.Unwrapped) : Accounted t := by
  obtain ⟨-, hkeeps | hloses⟩ := step_cases hs.filled h
  · rcases ha with howned | hmargin
    · exact .inl (hkeeps.owned_eq howned)
    · exact .inr (hkeeps.margin 8 (Nat.le_refl 8) (counted_step hs.counted h) ht hmargin)
  · exact .inr (hloses.margin hs hm)

theorem accounted_reachable (h : Reachable s) (hw : s.Unwrapped) : Accounted s := by
  induction h with
  | refl => exact .inl rfl
  | tail hrun hstep ih =>
      have hs := sound_initial.run hrun
      have hbefore := hw.before (misses_step hs.filled hstep)
      exact accounted_step hs (margin_reachable hrun hbefore) (ih hbefore) hstep hw

/-- A run in which never more than `n` calls are under way. -/
abbrev RunWithin (n : Nat) : ErrorHandles H → ErrorHandles H → Prop :=
  Relation.ReflTransGen fun s t => Step s t ∧ t.calls.card ≤ n

theorem RunWithin.run (h : RunWithin n s t) : Run s t :=
  Relation.ReflTransGen.mono (fun _ _ hstep => hstep.1) _ _ h

section Busy

/-- Calls that have the numbered handles. -/
def busy (handles : List Nat) : Multiset (PublicCall Nat) :=
  handles.map fun h => PublicCall.running (some h)

/-- As many calls as OCI had to allocate handles for. -/
def opened (n : Nat) : ErrorHandles Nat where
  pool := { (dpiHandlePoolCreate : DpiHandlePool Nat) with numUsedSlots := UInt32.ofNat n }
  calls := busy (List.range n).reverse
  allocated := (List.range n).reverse
  misses := n

theorem opened_succ (hn : n < 8) : RunWithin (n + 1) (opened n) (opened (n + 1)) := by
  have hcount : (opened n).pool.countUsed.numUsedSlots = UInt32.ofNat (n + 1) := by
    rw [UInt32.ofNat_add]
    rfl
  have hroom : ¬ (opened n).pool.countUsed.numUsedSlots.toNat > (opened n).pool.numSlots := by
    have hslots : (opened n).pool.numSlots = 8 := rfl
    rw [hcount, UInt32.toNat_ofNat_of_lt' (by rw [UInt32.size]; omega), hslots]
    omega
  have hempty : ¬ (opened n).pool.acquirePos ≠ (opened n).pool.releasePos := fun hne => hne rfl
  have hacquire : dpiHandlePoolAcquire true (opened n).pool =
      (.ok none, (opened n).pool.countUsed) := by
    rw [dpiHandlePoolAcquire, if_neg hempty, if_neg hroom]
  have hnew : n ∉ (opened n).allocated := by simp [opened]
  have hcard : (opened n).calls.card = n := by simp [opened, busy]
  have hlast : opened (n + 1) = ⟨(opened n).pool.countUsed, .running (some n) ::ₘ (opened n).calls,
      n ::ₘ (opened n).allocated, n + 1⟩ := by
    simp [opened, busy, List.range_succ, DpiHandlePool.countUsed, UInt32.ofNat_add]
  rw [hlast]
  have hstarted := Step.start (opened n)
  have hasked := @Step.acquire Nat ⟨(opened n).pool, .running none ::ₘ (opened n).calls,
    (opened n).allocated, n⟩ (opened n).calls true rfl
  rw [acquire, hacquire] at hasked
  have hdone := @Step.allocate Nat ⟨(opened n).pool.countUsed, .allocating ::ₘ (opened n).calls,
    (opened n).allocated, n + 1⟩ (opened n).calls n rfl hnew
  refine ((Relation.ReflTransGen.single ⟨hstarted, ?_⟩).tail ⟨hasked, ?_⟩).tail ⟨hdone, ?_⟩ <;>
    simp [hcard]

theorem opened_run {k : Nat} (hk : k ≤ 8) (hn : k ≤ n) : RunWithin n initial (opened k) := by
  induction k with
  | zero => exact .refl
  | succ k ih =>
      refine (ih (Nat.le_of_succ_le hk) (Nat.le_of_succ_le hn)).trans ?_
      refine Relation.ReflTransGen.mono ?_ _ _ (opened_succ (Nat.lt_of_succ_le hk))
      rintro s t ⟨hstep, hcard⟩
      exact ⟨hstep, Nat.le_trans hcard hn⟩

/-- The pool that the calls give their handles back to, one after the other. -/
def returned (handles : List Nat) (pool : DpiHandlePool Nat) : DpiHandlePool Nat :=
  handles.foldl (fun pool h => dpiHandlePoolRelease (some h) pool) pool

theorem finish_run (handles rest : List Nat) (pool : DpiHandlePool Nat) (a : Multiset Nat)
    (misses : Nat) :
    Run ⟨pool, busy (handles ++ rest), a, misses⟩
      ⟨returned handles pool, busy rest, a, misses⟩ := by
  induction handles generalizing pool with
  | nil => exact .refl
  | cons h handles ih =>
      have hfinish : Step ⟨pool, busy (h :: handles ++ rest), a, misses⟩
          ⟨dpiHandlePoolRelease (some h) pool, busy (handles ++ rest), a, misses⟩ :=
        @Step.finish Nat ⟨pool, busy (h :: handles ++ rest), a, misses⟩ (busy (handles ++ rest))
          (some h) rfl
      exact .head hfinish (ih _)

end Busy

/-- No error handle is given to two calls at once, or waits in the pool while a call has it. -/
theorem error_handles_exclusive (h : Reachable s) :
    (s.held + s.queued).Nodup ∧ s.held + s.queued ≤ s.allocated ∧ none ∉ s.pool.queued := by
  have hs := sound_initial.run h
  exact ⟨Multiset.nodup_of_le hs.owned hs.distinct, hs.owned, hs.filled⟩

theorem error_handles_exclusive_opened :
    Reachable (opened 2) ∧ ((opened 2).held + (opened 2).queued).Nodup ∧
      (opened 2).held + (opened 2).queued ≤ (opened 2).allocated ∧
        none ∉ (opened 2).pool.queued :=
  ⟨(opened_run (by decide) (Nat.le_refl 2)).run,
    error_handles_exclusive (opened_run (by decide) (Nat.le_refl 2)).run⟩

/-- Until the pool has missed 2 ^ 32 - 8 times, handles are lost at most once, and then all there
are. -/
theorem error_handles_lost_once (hs : Reachable s) (hst : Step s t) (hlost : ¬ s.owned ≤ t.owned)
    (ht : t.misses < 2 ^ 32 - 8) :
    s.owned = s.allocated ∧ s.owned.card = s.pool.numSlots ∧ t.owned = 0 ∧
      ∀ u v, Run t u → Step u v → v.misses < 2 ^ 32 - 8 → u.owned ≤ v.owned := by
  have hsound := sound_initial.run hs
  have hw : s.Unwrapped := Unwrapped.before ht (misses_step hsound.filled hst)
  have hm := margin_reachable hs hw
  obtain ⟨-, hkeeps | hloses⟩ := step_cases hsound.filled hst
  · exact absurd hkeeps.owned_le hlost
  · have howned := hloses.nothing_owned hm
    have hcard := hloses.card
    refine ⟨?_, ?_, howned, ?_⟩
    · rcases accounted_reachable hs hw with haccounted | hmargin
      · exact haccounted
      · exact (hloses.not_margin hmargin).elim
    · rw [hcard, howned]
      simp
    · intro u v htu huv hv
      have hafter := sound_step hsound hst
      have hu := hafter.run htu
      have hmargin := margin_run hafter (hloses.margin hsound hm) htu
        (Unwrapped.before hv (misses_step hu.filled huv))
      obtain ⟨-, hkeeps | hagain⟩ := step_cases hu.filled huv
      · exact hkeeps.owned_le
      · exact (hagain.not_margin hmargin).elim

/-- Eight calls at once have all given their handles back but one. -/
def almostReturned : ErrorHandles Nat where
  pool := returned [7, 6, 5, 4, 3, 2, 1] (opened 8).pool
  calls := busy [0]
  allocated := (opened 8).allocated
  misses := 8

def allReturned : ErrorHandles Nat where
  pool := dpiHandlePoolRelease (some 0) almostReturned.pool
  calls := 0
  allocated := (opened 8).allocated
  misses := 8

theorem almostReturned_reachable : Reachable almostReturned :=
  (opened_run (by decide) (Nat.le_refl 8)).run.trans (finish_run [7, 6, 5, 4, 3, 2, 1] [0] _ _ _)

theorem almostReturned_finish : Step almostReturned allReturned :=
  @Step.finish Nat almostReturned 0 (some 0) rfl

theorem error_handles_lost_once_eight :
    almostReturned.owned = almostReturned.allocated ∧
      almostReturned.owned.card = almostReturned.pool.numSlots ∧ allReturned.owned = 0 ∧
        ∀ u v, Run allReturned u → Step u v → v.misses < 2 ^ 32 - 8 → u.owned ≤ v.owned :=
  error_handles_lost_once almostReturned_reachable almostReturned_finish (by decide) (by decide)

/-- What `n` calls can need, and what they can have lost. -/
structure Needed (n : Nat) (s : ErrorHandles H) : Prop where
  sound : Sound s
  margin : Margin 0 s
  inUse : s.inUse ≤ n
  lost : s.owned = s.allocated ∨ Margin 8 s ∧ 8 ≤ n ∧ s.allocated.card ≤ s.owned.card + n

theorem Needed.keeps (hs : Needed n s) (hst : Step s t) (ht : t.calls.card ≤ n)
    (hk : Keeps s t) (hw : t.Unwrapped) : Needed n t := by
  refine ⟨sound_step hs.sound hst, margin_step hs.sound hs.margin hst hw, ?_, ?_⟩
  · rcases hk.inUse with hle | hqueued
    · exact Nat.le_trans hle hs.inUse
    · have hdemand := PublicCall.totalDemand_le t.calls
      rw [ErrorHandles.inUse, hqueued, List.length_nil]
      omega
  · rcases hs.lost with howned | ⟨hmargin, hn, hcard⟩
    · exact .inl (hk.owned_eq howned)
    · have hcounted := counted_step hs.sound.counted hst
      refine .inr ⟨hk.margin 8 (Nat.le_refl 8) hcounted hw hmargin, hn, ?_⟩
      rcases hk.owned with ⟨howned, hallocated⟩ | ⟨x, -, howned, hallocated⟩
      · rw [howned, hallocated]
        exact hcard
      · rw [howned, hallocated, Multiset.card_cons, Multiset.card_cons]
        omega

theorem Needed.loses (hs : Needed n s) (hst : Step s t) (hl : Loses s t) (hw : t.Unwrapped) :
    Needed n t := by
  have hzero := hl.unused hs.margin
  have hinUse := hl.inUse
  have hle := hs.inUse
  have hslots := hs.sound.slots
  refine ⟨sound_step hs.sound hst, margin_step hs.sound hs.margin hst hw, by omega,
    .inr ⟨hl.margin hs.sound hs.margin, by omega, ?_⟩⟩
  rcases hs.lost with howned | ⟨hmargin, -, -⟩
  · have hcard := s.card_owned_le
    rw [hl.allocated, ← howned]
    omega
  · exact (hl.not_margin hmargin).elim

theorem needed_run (h : RunWithin n initial s) (hw : s.Unwrapped) : Needed n s := by
  induction h with
  | refl =>
      refine ⟨sound_initial, margin_initial, ?_, .inl rfl⟩
      simp [inUse, initial, PublicCall.totalDemand]
  | tail hrun hstep ih =>
      have hs := sound_initial.run (RunWithin.run hrun)
      have hbefore := ih (hw.before (misses_step hs.filled hstep.1))
      obtain ⟨-, hkeeps | hloses⟩ := step_cases hs.filled hstep.1
      · exact hbefore.keeps hstep.1 hstep.2 hkeeps hw
      · exact hbefore.loses hstep.1 hloses hw

/-- Calls that are never more than `n` at once have at most `2 * n` error handles allocated, until
the pool has missed 2 ^ 32 - 8 times. -/
theorem error_handles_bounded (h : RunWithin n initial s) (hmisses : s.misses < 2 ^ 32 - 8) :
    s.allocated.card ≤ 2 * n ∧ (n < 8 → s.owned = s.allocated ∧ s.allocated.card ≤ n) := by
  have hs := needed_run h hmisses
  have hcard := s.card_owned_le
  have hinUse := hs.inUse
  rcases hs.lost with howned | ⟨-, hn, hlost⟩
  · rw [howned] at hcard
    exact ⟨by omega, fun _ => ⟨howned, by omega⟩⟩
  · exact ⟨by omega, fun hlt => absurd hn (Nat.not_le_of_lt hlt)⟩

theorem error_handles_bounded_opened :
    RunWithin 2 initial (opened 2) ∧ (opened 2).allocated.card ≤ 2 * 2 ∧
      (2 < 8 → (opened 2).owned = (opened 2).allocated ∧ (opened 2).allocated.card ≤ 2) :=
  ⟨opened_run (by decide) (Nat.le_refl 2),
    error_handles_bounded (opened_run (by decide) (Nat.le_refl 2)) (by decide)⟩

end ErrorHandles

end IdrisOracle
