import IdrisOracle.Effect
import IdrisOracle.Odpi

/-! The world of the C layer: ODPI-C behind its interface, the globals and a log of the calls. -/

namespace IdrisOracle

open Effect

/-- What a block is allocated for. -/
inductive BlockKind where
  | stmt
  | queryInfo
  | infoName
  | string
  | bytesHex
  | lobBuffer
  | lobHex
  | clobBuffer
deriving DecidableEq

/-- A member of the value union that an accessor reads. -/
inductive Member where
  | asBoolean
  | asInt64
  | asUint64
  | asFloat
  | asDouble
  | asBytes
  | asTimestamp
  | asIntervalDS
  | asIntervalYM
  | asLOB
  | asObject
  | asStmt
  | asRowid
  | asJson
  | asJsonObject
  | asJsonArray
  | asVector
deriving DecidableEq

/-- One interaction of the C layer with ODPI-C, with the allocator or with a fetched value. -/
inductive Event where
  | call (req : Req) (result : Except DpiError req.Resp)
  | release (handle : Handle)
  | alloc (kind : BlockKind) (block : Nat)
  | allocFailed (kind : BlockKind)
  | free (block : Nat)
  | read (member : Member)

/-- ODPI-C, Oracle and the allocator, with what Idris makes of a NULL string. -/
structure Env (σ : Type) where
  call : (req : Req) → σ → Except DpiError req.Resp × σ
  release : Handle → σ → σ
  storeVar : DpiVar → DpiData → σ → σ
  malloc : BlockKind → Nat → σ → Bool × σ
  nullString : String

/-- The error buffer of ODPI-C; `messageLength` is in bytes and leaves out trailing whitespace. -/
structure ErrorBuffer where
  code : Int32
  message : String
  messageLength : Nat

/-- A `message` pointer: NULL or into the error buffer of ODPI-C. -/
inductive MessagePtr where
  | null
  | buffer
deriving DecidableEq

/-- The fields of `dpiErrorInfo` that the C layer uses. -/
structure DpiErrorInfo where
  code : Int32
  message : MessagePtr
  messageLength : Nat

structure World (σ : Type) where
  odpi : σ
  errorBuffer : ErrorBuffer
  gContext : Bool
  gLastError : DpiErrorInfo
  gHasError : Bool
  nextBlock : Nat
  log : List Event

namespace World

variable {σ : Type}

/-- The world in which no function of the C layer has been called yet. -/
def initial (odpi : σ) : World σ where
  odpi := odpi
  errorBuffer := ⟨0, "", 0⟩
  gContext := false
  gLastError := ⟨0, .null, 0⟩
  gHasError := false
  nextBlock := 0
  log := []

def record (w : World σ) (event : Event) : World σ := { w with log := w.log ++ [event] }

/-- The world that a run from here leaves. -/
def after {α : Type} (w : World σ) (m : Eff (World σ) α) : World σ := (m w).elim w Prod.snd

end World

/-- The number of bytes of the message that ODPI-C reports. -/
def DpiError.messageLength (failure : DpiError) : Nat := failure.message.utf8ByteSize

/-- A call clears the code and the length first and leaves the text. -/
def ErrorBuffer.after {α : Type} (buffer : ErrorBuffer) : Except DpiError α → ErrorBuffer
  | .ok _ => { buffer with code := 0, messageLength := 0 }
  | .error err => ⟨err.code, err.text, err.messageLength⟩

section Primitives

variable {σ : Type} (env : Env σ)

/-- Call a function of ODPI-C. -/
def odpi (req : Req) : Eff (World σ) (Except DpiError req.Resp) :=
  step fun w =>
    let reply := env.call req w.odpi
    (reply.1,
      { w.record (.call req reply.1) with
        odpi := reply.2
        errorBuffer := w.errorBuffer.after reply.1 })

def odpiRelease (handle : Handle) : Eff (World σ) Unit :=
  step fun w => ((), { w.record (.release handle) with odpi := env.release handle w.odpi })

/-- The assignment `varData[0] = *data` to the buffer of a variable. -/
def storeVar (var : DpiVar) (data : DpiData) : Eff (World σ) Unit :=
  step fun w => ((), { w with odpi := env.storeVar var data w.odpi })

/-- A new block, or `none` for NULL. -/
def malloc (kind : BlockKind) (size : Nat) : Eff (World σ) (Option Nat) :=
  step fun w =>
    let reply := env.malloc kind size w.odpi
    match reply.1 with
    | true =>
        (some w.nextBlock,
          { w.record (.alloc kind w.nextBlock) with
            odpi := reply.2
            nextBlock := w.nextBlock + 1 })
    | false => (none, { w.record (.allocFailed kind) with odpi := reply.2 })

def free (block : Nat) : Eff (World σ) Unit := step fun w => ((), w.record (.free block))

/-- Read a member of the value union. -/
def readMember {α : Type} (member : Member) (value : α) : Eff (World σ) α :=
  step fun w => (value, w.record (.read member))

/-- The world after a call of ODPI-C. -/
def World.called (w : World σ) (req : Req) : World σ :=
  { w.record (.call req (env.call req w.odpi).1) with
    odpi := (env.call req w.odpi).2
    errorBuffer := w.errorBuffer.after (env.call req w.odpi).1 }

def World.released (w : World σ) (handle : Handle) : World σ :=
  { w.record (.release handle) with odpi := env.release handle w.odpi }

/-- The world after an allocation that succeeds. -/
def World.allocated (w : World σ) (kind : BlockKind) (size : Nat) : World σ :=
  { w.record (.alloc kind w.nextBlock) with
    odpi := (env.malloc kind size w.odpi).2
    nextBlock := w.nextBlock + 1 }

/-- The world after an allocation that fails. -/
def World.refused (w : World σ) (kind : BlockKind) (size : Nat) : World σ :=
  { w.record (.allocFailed kind) with odpi := (env.malloc kind size w.odpi).2 }

@[simp] theorem malloc_apply (kind : BlockKind) (size : Nat) (w : World σ) :
    malloc env kind size w =
      some (if (env.malloc kind size w.odpi).1 then (some w.nextBlock, w.allocated env kind size)
        else (none, w.refused env kind size)) := by
  cases hmalloc : (env.malloc kind size w.odpi).1 <;>
    simp [malloc, hmalloc, World.allocated, World.refused]

@[simp] theorem odpi_apply (req : Req) (w : World σ) :
    odpi env req w = some ((env.call req w.odpi).1, w.called env req) := rfl

@[simp] theorem odpiRelease_apply (handle : Handle) (w : World σ) :
    odpiRelease env handle w = some ((), w.released env handle) := rfl

@[simp] theorem free_apply (block : Nat) (w : World σ) :
    free block w = some ((), w.record (.free block)) := rfl

@[simp] theorem readMember_apply {α : Type} (member : Member) (value : α) (w : World σ) :
    readMember member value w = some (value, w.record (.read member)) := rfl

@[simp] theorem World.record_odpi (w : World σ) (event : Event) :
    (w.record event).odpi = w.odpi := rfl

@[simp] theorem World.record_nextBlock (w : World σ) (event : Event) :
    (w.record event).nextBlock = w.nextBlock := rfl

@[simp] theorem World.record_log (w : World σ) (event : Event) :
    (w.record event).log = w.log ++ [event] := rfl

@[simp] theorem World.released_log (w : World σ) (handle : Handle) :
    (w.released env handle).log = w.log ++ [.release handle] := rfl

@[simp] theorem World.allocated_log (w : World σ) (kind : BlockKind) (size : Nat) :
    (w.allocated env kind size).log = w.log ++ [.alloc kind w.nextBlock] := rfl

@[simp] theorem World.refused_log (w : World σ) (kind : BlockKind) (size : Nat) :
    (w.refused env kind size).log = w.log ++ [.allocFailed kind] := rfl

@[simp] theorem World.called_odpi (w : World σ) (req : Req) :
    (w.called env req).odpi = (env.call req w.odpi).2 := rfl

@[simp] theorem World.called_log (w : World σ) (req : Req) :
    (w.called env req).log = w.log ++ [.call req (env.call req w.odpi).1] := rfl

variable {env} {w w' : World σ}

theorem runs_malloc_some {kind : BlockKind} {size b : Nat}
    (hrun : Runs (malloc env kind size) w (some b) w') :
    (env.malloc kind size w.odpi).1 = true ∧ w' = w.allocated env kind size := by
  cases hmalloc : (env.malloc kind size w.odpi).1 with
  | false => simp [Runs, hmalloc] at hrun
  | true =>
      simp [Runs, hmalloc] at hrun
      exact ⟨rfl, hrun.2.symm⟩

theorem runs_malloc_none {kind : BlockKind} {size : Nat}
    (hrun : Runs (malloc env kind size) w none w') : (env.malloc kind size w.odpi).1 = false := by
  cases hmalloc : (env.malloc kind size w.odpi).1 with
  | false => rfl
  | true => simp [Runs, hmalloc] at hrun

theorem runs_odpi {req : Req} {reply : Except DpiError req.Resp}
    (hrun : Runs (odpi env req) w reply w') :
    (env.call req w.odpi).1 = reply ∧ w' = w.called env req := by
  simp [Runs] at hrun
  exact ⟨hrun.1, hrun.2.symm⟩

end Primitives

end IdrisOracle
