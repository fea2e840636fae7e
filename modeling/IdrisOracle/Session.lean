import Mathlib.Data.List.Basic
import Mathlib.Tactic.Common

/-! A database session: what is committed, what the session sees and what later work commits. -/

/-- The database others see and the one the session sees with its own uncommitted changes. -/
structure Session (Db : Type) where
  committed : Db
  working : Db

namespace Session

variable {Db α : Type}

/-- One statement of a session, with the change it makes to the database. -/
inductive Op (Db : Type) where
  | dml (change : Db → Db)
  | ddl (change : Db → Db)
  | commit
  | failedCommit
  | rollback

def dml (change : Db → Db) (s : Session Db) : Session Db :=
  { s with working := change s.working }

/-- A DDL statement commits what is open and then its own change. -/
def ddl (change : Db → Db) (s : Session Db) : Session Db :=
  { committed := change s.working, working := change s.working }

def commit (s : Session Db) : Session Db := { s with committed := s.working }

def rollback (s : Session Db) : Session Db := { s with working := s.committed }

def apply (s : Session Db) : Op Db → Session Db
  | .dml change => s.dml change
  | .ddl change => s.ddl change
  | .commit => s.commit
  | .failedCommit => s
  | .rollback => s.rollback

def run (s : Session Db) (ops : List (Op Db)) : Session Db := ops.foldl apply s

/-- No change is open. -/
def Clean (s : Session Db) : Prop := s.working = s.committed

/-- A session with nothing open. -/
def start (db : Db) : Session Db := ⟨db, db⟩

@[simp] theorem run_nil (s : Session Db) : s.run [] = s := rfl

@[simp] theorem run_cons (s : Session Db) (op : Op Db) (ops : List (Op Db)) :
    s.run (op :: ops) = (s.apply op).run ops := rfl

theorem Clean.eq_start {s : Session Db} (h : s.Clean) : s = start s.committed := by
  cases s
  cases h
  rfl

theorem eq_iff_working {s t : Session Db} (hcommitted : s.committed = t.committed) :
    s = t ↔ s.working = t.working := by
  cases s
  cases t
  simp_all

/-- Two sessions agree on everything any later work can commit only if they are the same. -/
theorem indistinguishable_iff {s t : Session Db} :
    (∀ ops, (s.run ops).committed = (t.run ops).committed) ↔ s = t := by
  constructor
  · intro h
    have hcommitted := h []
    have hworking := h [.commit]
    cases s
    cases t
    simp_all [apply, commit]
  · rintro rfl ops
    rfl

end Session
