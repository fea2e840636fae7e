import IdrisOracle.FetchWindow
import IdrisOracle.Ring

/-! The pool of handles of ODPI-C, acquired from its front and released to its back. -/

namespace IdrisOracle

variable {H : Type}

def DpiError.noMemory : DpiError := ofNum 1001 "out of memory"

/-- A circular queue of handles whose positions lie inside its array. -/
structure DpiHandlePool (H : Type) where
  handles : List (Option H)
  numUsedSlots : UInt32
  acquirePos : Nat
  releasePos : Nat
  acquirePos_lt : acquirePos < handles.length
  releasePos_lt : releasePos < handles.length

namespace DpiHandlePool

variable (pool : DpiHandlePool H)

def numSlots : Nat := pool.handles.length

def first : Option H := pool.handles.get ⟨pool.acquirePos, pool.acquirePos_lt⟩

theorem next_acquirePos_lt : Ring.next pool.numSlots pool.acquirePos <
    (pool.handles.set pool.acquirePos none).length := by
  rw [List.length_set]
  exact Ring.next_lt pool.acquirePos_lt

theorem releasePos_lt_cleared :
    pool.releasePos < (pool.handles.set pool.acquirePos none).length := by
  rw [List.length_set]
  exact pool.releasePos_lt

def clearFirst : DpiHandlePool H where
  handles := pool.handles.set pool.acquirePos none
  numUsedSlots := pool.numUsedSlots
  acquirePos := Ring.next pool.numSlots pool.acquirePos
  releasePos := pool.releasePos
  acquirePos_lt := pool.next_acquirePos_lt
  releasePos_lt := pool.releasePos_lt_cleared

def countUsed : DpiHandlePool H := { pool with numUsedSlots := pool.numUsedSlots + 1 }

theorem lt_length_grown {i : Nat} (hi : i < pool.handles.length) :
    i < (pool.handles ++ List.replicate 8 none).length := by
  rw [List.length_append]
  omega

def grow : DpiHandlePool H where
  handles := pool.handles ++ List.replicate 8 none
  numUsedSlots := pool.numUsedSlots
  acquirePos := pool.acquirePos
  releasePos := pool.releasePos
  acquirePos_lt := pool.lt_length_grown pool.acquirePos_lt
  releasePos_lt := pool.lt_length_grown pool.releasePos_lt

theorem zero_lt_create : 0 < (List.replicate 8 (none : Option H)).length := by simp

theorem next_releasePos_lt (handle : Option H) : Ring.next pool.numSlots pool.releasePos <
    (pool.handles.set pool.releasePos handle).length := by
  rw [List.length_set]
  exact Ring.next_lt pool.releasePos_lt

theorem acquirePos_lt_filled (handle : Option H) :
    pool.acquirePos < (pool.handles.set pool.releasePos handle).length := by
  rw [List.length_set]
  exact pool.acquirePos_lt

end DpiHandlePool

def dpiHandlePoolCreate : DpiHandlePool H where
  handles := List.replicate 8 none
  numUsedSlots := 0
  acquirePos := 0
  releasePos := 0
  acquirePos_lt := DpiHandlePool.zero_lt_create
  releasePos_lt := DpiHandlePool.zero_lt_create

/-- The handle is NULL when the caller has to make one; `granted` says whether memory is left. -/
def dpiHandlePoolAcquire (granted : Bool) (pool : DpiHandlePool H) :
    Except DpiError (Option H) × DpiHandlePool H :=
  if pool.acquirePos ≠ pool.releasePos then (.ok pool.first, pool.clearFirst)
  else if pool.countUsed.numUsedSlots.toNat > pool.numSlots then
    if granted then (.ok none, pool.countUsed.grow) else (.error .noMemory, pool.countUsed)
  else (.ok none, pool.countUsed)

def dpiHandlePoolRelease (handle : Option H) (pool : DpiHandlePool H) : DpiHandlePool H where
  handles := pool.handles.set pool.releasePos handle
  numUsedSlots := pool.numUsedSlots
  acquirePos := pool.acquirePos
  releasePos := Ring.next pool.numSlots pool.releasePos
  acquirePos_lt := pool.acquirePos_lt_filled handle
  releasePos_lt := pool.next_releasePos_lt handle

/-- The handles that wait in the pool, the first to be acquired first. -/
def DpiHandlePool.queued (pool : DpiHandlePool H) : List (Option H) :=
  Ring.items pool.handles pool.acquirePos pool.releasePos

namespace DpiHandlePool

variable {pool : DpiHandlePool H} {handle : Option H} {rest : List (Option H)}

@[simp] theorem queued_create : (dpiHandlePoolCreate : DpiHandlePool H).queued = [] :=
  Ring.items_self _ _

@[simp] theorem numSlots_create : (dpiHandlePoolCreate : DpiHandlePool H).numSlots = 8 := rfl

@[simp] theorem numSlots_release :
    (dpiHandlePoolRelease handle pool).numSlots = pool.numSlots := by
  simp [numSlots, dpiHandlePoolRelease]

@[simp] theorem numUsedSlots_release :
    (dpiHandlePoolRelease handle pool).numUsedSlots = pool.numUsedSlots := rfl

@[simp] theorem numSlots_clearFirst : pool.clearFirst.numSlots = pool.numSlots := by
  simp [numSlots, clearFirst]

@[simp] theorem numSlots_grow : pool.grow.numSlots = pool.numSlots + 8 := by
  simp [numSlots, grow]

/-- A pool never holds as many handles as it has slots. -/
theorem length_queued_lt : pool.queued.length < pool.numSlots :=
  Ring.length_items_lt pool.acquirePos_lt pool.releasePos_lt

theorem queued_eq_nil : pool.queued = [] ↔ pool.acquirePos = pool.releasePos := by
  constructor
  · intro hnil
    by_contra hne
    exact Ring.items_ne_nil pool.acquirePos_lt pool.releasePos_lt hne hnil
  · intro heq
    rw [queued, heq]
    exact Ring.items_self _ _

theorem queued_eq_cons (h : pool.acquirePos ≠ pool.releasePos) :
    pool.queued = pool.first :: pool.clearFirst.queued :=
  Ring.items_pop pool.acquirePos_lt pool.releasePos_lt h none

/-- The handle released first is acquired first. -/
theorem acquire_queued (granted : Bool) (h : pool.queued = handle :: rest) :
    ∃ after, dpiHandlePoolAcquire granted pool = (.ok handle, after) ∧ after.queued = rest ∧
      after.numSlots = pool.numSlots ∧ after.numUsedSlots = pool.numUsedSlots := by
  have hne : pool.acquirePos ≠ pool.releasePos := by
    intro heq
    rw [queued_eq_nil.mpr heq] at h
    cases h
  rw [queued_eq_cons hne] at h
  obtain ⟨rfl, rfl⟩ := List.cons.inj h
  exact ⟨pool.clearFirst, by simp [dpiHandlePoolAcquire, hne], rfl, numSlots_clearFirst, rfl⟩

/-- What acquiring from an empty pool does. -/
structure Missed (pool : DpiHandlePool H) (got : Except DpiError (Option H))
    (after : DpiHandlePool H) : Prop where
  queued : after.queued = []
  numUsedSlots : after.numUsedSlots = pool.numUsedSlots + 1
  outcome : got = .error .noMemory ∧ after.numSlots = pool.numSlots ∨
    got = .ok none ∧ (after.numUsedSlots.toNat ≤ pool.numSlots ∧
      after.numSlots = pool.numSlots ∨ after.numSlots = pool.numSlots + 8)

theorem acquire_empty (granted : Bool) (h : pool.queued = []) :
    Missed pool (dpiHandlePoolAcquire granted pool).1 (dpiHandlePoolAcquire granted pool).2 := by
  have heq := queued_eq_nil.mp h
  rw [dpiHandlePoolAcquire, if_neg (not_not.mpr heq)]
  by_cases hused : pool.countUsed.numUsedSlots.toNat > pool.numSlots
  · rw [if_pos hused]
    cases granted with
    | false => exact ⟨h, rfl, .inl ⟨rfl, rfl⟩⟩
    | true => exact ⟨queued_eq_nil.mpr heq, rfl, .inr ⟨rfl, .inr numSlots_grow⟩⟩
  · rw [if_neg hused]
    exact ⟨h, rfl, .inr ⟨rfl, .inl ⟨Nat.le_of_not_lt hused, rfl⟩⟩⟩

/-- Releasing into the last free slot leaves a pool that reads as empty. -/
theorem release_cases (handle : Option H) (pool : DpiHandlePool H) :
    (pool.queued.length + 1 < pool.numSlots ∧
      (dpiHandlePoolRelease handle pool).queued = pool.queued ++ [handle]) ∨
    (pool.queued.length + 1 = pool.numSlots ∧
      (dpiHandlePoolRelease handle pool).queued = []) := by
  have hfull := Ring.next_back_eq_front pool.acquirePos_lt pool.releasePos_lt
  by_cases hnext : Ring.next pool.numSlots pool.releasePos = pool.acquirePos
  · exact .inr ⟨hfull.mp hnext, queued_eq_nil.mpr hnext.symm⟩
  · have hlt : pool.queued.length < pool.numSlots := length_queued_lt
    have hne : pool.queued.length + 1 ≠ pool.numSlots := fun h => hnext (hfull.mpr h)
    exact .inl ⟨by omega, Ring.items_push pool.acquirePos_lt pool.releasePos_lt hnext handle⟩

end DpiHandlePool

end IdrisOracle
