import IdrisOracle.RowScript

/-! What the library does to handles and blocks, as well-nested traces. -/

namespace IdrisOracle

open Effect

/-- A handle in use; a query-info structure is known by its block. -/
inductive Holding where
  | conn (conn : DpiConn)
  | stmt (stmt : DpiStmt)
  | info (block : Nat)
deriving DecidableEq

/-- The handles a request is given. -/
def Req.uses : Req → List Holding
  | .contextCreate | .connCreate .. => []
  | .connCommit conn | .connRollback conn | .connPrepareStmt conn _ | .connNewVar conn .. =>
      [.conn conn]
  | .stmtBindByName stmt .. | .stmtBindValueByName stmt .. | .stmtExecute stmt | .stmtFetch stmt
  | .stmtGetNumQueryColumns stmt | .stmtGetQueryInfo stmt _ | .stmtGetQueryValue stmt _ =>
      [.stmt stmt]
  | .lobGetSize _ | .lobGetBufferSize .. | .lobReadBytes .. => []

/-- The request is for a handle that a bracket gives back. -/
def Req.Acquires : Req → Prop
  | .connCreate .. | .connPrepareStmt .. | .stmtGetQueryInfo .. => True
  | _ => False

/-- The blocks that are filled with text for Idris as soon as they are there. -/
def BlockKind.IsText : BlockKind → Prop
  | .infoName | .string | .bytesHex | .lobHex => True
  | _ => False

/-- An event that neither acquires nor gives back anything and uses held handles only. -/
def Event.Plain (held : List Holding) : Event → Prop
  | .call req result =>
      (∀ holding ∈ req.uses, holding ∈ held) ∧ (req.Acquires → ∃ err, result = .error err)
  | .release (.var _) | .release (.lob _) | .allocFailed _ | .read _ => True
  | .release (.conn _) | .release (.stmt _) | .alloc .. | .free _ => False

/-- The well-nested traces while handles are held, with the numbers of the blocks. -/
inductive Nested : List Holding → Nat → List Event → Nat → Prop
  | nil {held : List Holding} {n : Nat} : Nested held n [] n
  | append {held : List Holding} {n m n' : Nat} {first rest : List Event}
      (hfirst : Nested held n first m) (hrest : Nested held m rest n') :
      Nested held n (first ++ rest) n'
  | plain {held : List Holding} {n : Nat} {event : Event} (hevent : event.Plain held) :
      Nested held n [event] n
  | text {held : List Holding} {n : Nat} {kind : BlockKind} (hkind : kind.IsText) :
      Nested held n [.alloc kind n] (n + 1)
  | clob {held : List Holding} {n : Nat} {lob : DpiLob} {amount length : UInt64}
      {bytes : List UInt8} :
      Nested held n [.alloc .clobBuffer n, .call (.lobReadBytes lob 1 amount length) (.ok bytes)]
        (n + 1)
  | buffer {held : List Holding} {n n' : Nat} {kind : BlockKind} {event : Event}
      {inner : List Event} (hkind : ¬ kind.IsText) (hevent : event.Plain held)
      (hread : kind = .clobBuffer → event.Failed) (hinner : Nested held (n + 1) inner n') :
      Nested held n (.alloc kind n :: event :: (inner ++ [.free n])) n'
  | info {held : List Holding} {n n' : Nat} {stmt : DpiStmt} {pos : UInt32}
      {info : DpiQueryInfo} {inner : List Event} (hstmt : .stmt stmt ∈ held)
      (hinner : Nested (.info n :: held) (n + 1) inner n') :
      Nested held n (.alloc .queryInfo n :: .call (.stmtGetQueryInfo stmt pos) (.ok info) ::
        (inner ++ [.free n])) n'
  | stmt {held : List Holding} {n n' : Nat} {conn : DpiConn} {sql : List UInt8} {stmt : DpiStmt}
      {inner : List Event} (hconn : .conn conn ∈ held)
      (hinner : Nested (.stmt stmt :: held) (n + 1) inner n') :
      Nested held n (.alloc .stmt n :: .call (.connPrepareStmt conn sql) (.ok stmt) ::
        (inner ++ [.release (.stmt stmt), .free n])) n'
  | conn {held : List Holding} {n n' : Nat} {username password connectString : List UInt8}
      {conn : DpiConn} {inner : List Event} (hinner : Nested (.conn conn :: held) n inner n') :
      Nested held n (.call (.connCreate username password connectString) (.ok conn) ::
        (inner ++ [.release (.conn conn)])) n'

variable {σ α β : Type} {env : Env σ} {held : List Holding} {u v w w' : World σ}

/-- The log has grown by a well-nested trace. -/
def Traces (held : List Holding) (w w' : World σ) : Prop :=
  ∃ delta, w'.log = w.log ++ delta ∧ Nested held w.nextBlock delta w'.nextBlock

theorem Traces.refl (w : World σ) : Traces held w w := ⟨[], by simp, .nil⟩

theorem Traces.trans (huv : Traces held u v) (hvw : Traces held v w) : Traces held u w := by
  obtain ⟨first, hfirst, htrace⟩ := huv
  obtain ⟨rest, hrest, htrace'⟩ := hvw
  exact ⟨first ++ rest, by rw [hrest, hfirst, List.append_assoc], .append htrace htrace'⟩

/-- Every run of the computation is a well-nested trace. -/
def Tracks (held : List Holding) (m : Eff (World σ) α) : Prop :=
  ∀ w a w', Runs m w a w' → Traces held w w'

namespace Tracks

theorem pure (a : α) : Tracks held (Pure.pure a : Eff (World σ) α) := by
  intro w b w' hrun
  obtain ⟨-, rfl⟩ := runs_pure.mp hrun
  exact Traces.refl _

theorem seq {m : Eff (World σ) α} {f : α → Eff (World σ) β} (hm : Tracks held m)
    (hf : ∀ a, Tracks held (f a)) : Tracks held (m >>= f) := by
  intro w b w' hrun
  obtain ⟨a, w₁, hfirst, hrest⟩ := runs_bind.mp hrun
  exact (hm _ _ _ hfirst).trans (hf a _ _ _ hrest)

theorem andThen {m : Eff (World σ) (Outcome α)} {f : α → Eff (World σ) (Outcome β)}
    (hm : Tracks held m) (hf : ∀ a, Tracks held (f a)) :
    Tracks held (IdrisOracle.andThen m f) := by
  refine hm.seq fun result => ?_
  cases result with
  | error err => exact pure _
  | ok a => exact hf a

theorem bracket {ρ : Type} {acquire : Eff (World σ) ρ} {use : ρ → Eff (World σ) α}
    {release : ρ → Eff (World σ) Unit} (hacquire : Tracks held acquire)
    (huse : ∀ r, Tracks held (use r)) (hrelease : ∀ r, Tracks held (release r)) :
    Tracks held (Effect.bracket acquire use release) :=
  hacquire.seq fun r => (huse r).seq fun a => (hrelease r).seq fun _ => pure a

/-- A step that writes nothing to the log. -/
theorem silent {f : World σ → α × World σ} (hlog : ∀ w, (f w).2.log = w.log)
    (hblock : ∀ w, (f w).2.nextBlock = w.nextBlock) : Tracks held (Effect.step f) := by
  intro w a w' hrun
  obtain ⟨-, rfl⟩ := runs_step.mp hrun
  refine ⟨[], by rw [hlog, List.append_nil], ?_⟩
  rw [hblock]
  exact .nil

/-- A step that writes a plain event. -/
theorem event {f : World σ → α × World σ} {e : World σ → Event}
    (hlog : ∀ w, (f w).2.log = w.log ++ [e w]) (hblock : ∀ w, (f w).2.nextBlock = w.nextBlock)
    (hplain : ∀ w, (e w).Plain held) : Tracks held (Effect.step f) := by
  intro w a w' hrun
  obtain ⟨-, rfl⟩ := runs_step.mp hrun
  refine ⟨[e w], hlog w, ?_⟩
  rw [hblock]
  exact .plain (hplain w)

end Tracks

section Primitives

theorem plain_call {req : Req} {result : Except DpiError req.Resp}
    (huses : ∀ holding ∈ req.uses, holding ∈ held) (hreq : ¬ req.Acquires) :
    (Event.call req result).Plain held :=
  ⟨huses, fun h => absurd h hreq⟩

theorem tracks_odpi {req : Req} (huses : ∀ holding ∈ req.uses, holding ∈ held)
    (hreq : ¬ req.Acquires) : Tracks held (odpi env req) :=
  Tracks.event (fun _ => rfl) (fun _ => rfl) fun _ => plain_call huses hreq

theorem tracks_release {handle : Handle} (h : (Event.release handle).Plain held) :
    Tracks held (odpiRelease env handle) :=
  Tracks.event (fun _ => rfl) (fun _ => rfl) fun _ => h

theorem tracks_storeVar (var : DpiVar) (data : DpiData) : Tracks held (storeVar env var data) :=
  Tracks.silent (fun _ => rfl) fun _ => rfl

theorem tracks_readMember (member : Member) (a : α) :
    Tracks held (readMember member a : Eff (World σ) α) :=
  Tracks.event (e := fun _ => .read member) (fun _ => rfl) (fun _ => rfl) fun _ => trivial

theorem tracks_malloc (kind : BlockKind) (hkind : kind.IsText) (size : Nat) :
    Tracks held (malloc env kind size) := by
  intro w block w' hrun
  rw [Runs, malloc_apply] at hrun
  split at hrun
  · cases hrun
    exact ⟨_, rfl, .text hkind⟩
  · cases hrun
    exact ⟨_, rfl, .plain trivial⟩

theorem tracks_captureLastError : Tracks held (oracleCaptureLastError : Eff (World σ) Unit) := by
  intro w a w' hrun
  rw [Runs, oracleCaptureLastError_apply] at hrun
  cases hrun
  refine ⟨[], by simp, ?_⟩
  rw [World.capturedLast]
  split
  · exact .nil
  · exact .nil

theorem tracks_captured (a : α) : Tracks held (do
    oracleCaptureLastError
    return a : Eff (World σ) α) :=
  tracks_captureLastError.seq fun _ => Tracks.pure a

theorem tracks_getLastError : Tracks held (getLastError env) := by
  intro w a w' hrun
  rw [Runs, getLastError_apply] at hrun
  cases hrun
  exact Traces.refl _

theorem tracks_lastError {α : Type} : Tracks held (do
    let lasterr ← getLastError env
    return .error lasterr : Eff (World σ) (Outcome α)) :=
  tracks_getLastError.seq fun _ => Tracks.pure _

theorem tracks_finish (rc : Int32) : Tracks held (finish env rc) := by
  intro w a w' hrun
  rw [Runs, finish_apply] at hrun
  cases hrun
  exact Traces.refl _

/-- A call, with what follows its failure and its success. -/
theorem tracks_call {req : Req} (huses : ∀ holding ∈ req.uses, holding ∈ held)
    (hreq : ¬ req.Acquires) {k : Except DpiError req.Resp → Eff (World σ) α}
    (herror : ∀ err, Tracks held (k (.error err))) (hok : ∀ reply, Tracks held (k (.ok reply))) :
    Tracks held (odpi env req >>= k) := by
  refine (tracks_odpi huses hreq).seq fun result => ?_
  cases result with
  | error err => exact herror err
  | ok reply => exact hok reply

end Primitives

section Blocks

@[simp] theorem World.capturedLast_nextBlock (w : World σ) :
    w.capturedLast.nextBlock = w.nextBlock := by
  rw [World.capturedLast]
  split <;> rfl

@[simp] theorem World.called_nextBlock (w : World σ) (req : Req) :
    (w.called env req).nextBlock = w.nextBlock := rfl

@[simp] theorem World.allocated_nextBlock (w : World σ) (kind : BlockKind) (size : Nat) :
    (w.allocated env kind size).nextBlock = w.nextBlock + 1 := rfl

@[simp] theorem World.refused_nextBlock (w : World σ) (kind : BlockKind) (size : Nat) :
    (w.refused env kind size).nextBlock = w.nextBlock := rfl

/-- Every run is a well-nested trace that ends with the given events. -/
def Ends (held : List Holding) (last : List Event) (m : Eff (World σ) α) : Prop :=
  ∀ w a w', Runs m w a w' →
    ∃ inner, w'.log = w.log ++ (inner ++ last) ∧ Nested held w.nextBlock inner w'.nextBlock

theorem Tracks.ends {last : List Event} {m : Eff (World σ) α} {f : α → Eff (World σ) β}
    (hm : Tracks held m) (hf : ∀ a, Ends held last (f a)) : Ends held last (m >>= f) := by
  intro w b w' hrun
  obtain ⟨a, w₁, hfirst, hrest⟩ := runs_bind.mp hrun
  obtain ⟨first, hlog, htrace⟩ := hm _ _ _ hfirst
  obtain ⟨inner, hlog', htrace'⟩ := hf a _ _ _ hrest
  refine ⟨first ++ inner, ?_, .append htrace htrace'⟩
  rw [hlog', hlog, List.append_assoc, List.append_assoc]

theorem Ends.return {last : List Event} {m : Eff (World σ) Unit} (hm : Ends held last m) (a : α) :
    Ends held last (m >>= fun _ => pure a) := by
  intro w b w' hrun
  obtain ⟨_, w₁, hfirst, hrest⟩ := runs_bind.mp hrun
  obtain ⟨-, rfl⟩ := runs_pure.mp hrest
  exact hm _ _ _ hfirst

theorem ends_free (block : Nat) :
    Ends held [.free block] (free block : Eff (World σ) Unit) := by
  intro w _ w' hrun
  cases hrun
  exact ⟨[], rfl, .nil⟩

/-- An allocation that a call follows: it is refused, or the call is made. -/
theorem runs_alloc_call {kind : BlockKind} {size : Nat} {req : Req} {a : α}
    {k : Option Nat → Eff (World σ) α} {g : Nat → Except DpiError req.Resp → Eff (World σ) α}
    (hk : ∀ block, k (some block) = odpi env req >>= g block)
    (hrun : Runs (malloc env kind size >>= k) w a w') :
    (∃ w₁, w₁.log = w.log ++ [.allocFailed kind] ∧ w₁.nextBlock = w.nextBlock ∧
        Runs (k none) w₁ a w') ∨
      ∃ reply w₁, w₁.log = w.log ++ [.alloc kind w.nextBlock, .call req reply] ∧
        w₁.nextBlock = w.nextBlock + 1 ∧ Runs (g w.nextBlock reply) w₁ a w' := by
  obtain ⟨block, w₁, hmalloc, hrest⟩ := runs_bind.mp hrun
  rw [Runs, malloc_apply] at hmalloc
  split at hmalloc
  · cases hmalloc
    rw [hk] at hrest
    obtain ⟨reply, w₂, hcall, hrest⟩ := runs_bind.mp hrest
    cases hcall
    exact .inr ⟨_, _, by simp, rfl, hrest⟩
  · cases hmalloc
    exact .inl ⟨w.refused env kind size, rfl, rfl, hrest⟩

theorem traces_refused {kind : BlockKind} (hlog : w'.log = w.log ++ [.allocFailed kind])
    (hblock : w'.nextBlock = w.nextBlock) : Traces held w w' :=
  ⟨_, hlog, hblock ▸ .plain trivial⟩

/-- A block that is freed after a call and what follows it. -/
theorem traces_buffer {kind : BlockKind} {event : Event} {m : Eff (World σ) α} {a : α}
    (hkind : ¬ kind.IsText) (hevent : event.Plain held)
    (hread : kind = .clobBuffer → event.Failed)
    (hlog : v.log = w.log ++ [.alloc kind w.nextBlock, event])
    (hblock : v.nextBlock = w.nextBlock + 1) (hends : Ends held [.free w.nextBlock] m)
    (hrun : Runs m v a w') : Traces held w w' := by
  obtain ⟨inner, hlog', htrace⟩ := hends _ _ _ hrun
  rw [hblock] at htrace
  refine ⟨_, ?_, .buffer hkind hevent hread htrace⟩
  rw [hlog', hlog, List.append_assoc]
  rfl

theorem tracks_oracleLobRead (lob : Option DpiLob) (offset length : Int64) :
    Tracks held (oracleLobRead env lob offset length) := by
  intro w hex w' hrun
  cases lob with
  | none =>
      cases hrun
      exact Traces.refl _
  | some lob =>
      rcases runs_alloc_call (fun _ => rfl) hrun with ⟨w₁, hlog, hblock, hrest⟩ |
        ⟨reply, w₁, hlog, hblock, hrest⟩
      · cases hrest
        exact traces_refused hlog hblock
      · refine traces_buffer (by simp [BlockKind.IsText])
          (plain_call (by simp [Req.uses]) (by simp [Req.Acquires])) (by simp) hlog hblock ?_ hrest
        cases reply with
        | error failure => exact tracks_captureLastError.ends fun _ => (ends_free _).return _
        | ok bytes =>
            refine (tracks_malloc .lobHex trivial _).ends fun hex => ?_
            cases hex with
            | none => exact (ends_free _).return _
            | some hex => exact (ends_free _).return _

theorem tracks_oracleClobRead (lob : Option DpiLob) : Tracks held (oracleClobRead env lob) := by
  cases lob with
  | none => exact Tracks.pure _
  | some lob =>
      refine tracks_call (by simp [Req.uses]) (by simp [Req.Acquires])
        (fun _ => tracks_captured _) fun chars => ?_
      refine tracks_call (by simp [Req.uses]) (by simp [Req.Acquires])
        (fun _ => tracks_captured _) fun size => ?_
      intro w text w' hrun
      rcases runs_alloc_call (fun _ => rfl) hrun with ⟨w₁, hlog, hblock, hrest⟩ |
        ⟨reply, w₁, hlog, hblock, hrest⟩
      · cases hrest
        exact traces_refused hlog hblock
      · cases reply with
        | error failure =>
            refine traces_buffer (by simp [BlockKind.IsText])
              (plain_call (by simp [Req.uses]) (by simp [Req.Acquires])) (fun _ => by exact trivial)
              hlog hblock ?_ hrest
            exact tracks_captureLastError.ends fun _ => (ends_free _).return _
        | ok bytes =>
            cases hrest
            exact ⟨_, hlog, hblock ▸ .clob⟩

end Blocks

section Brackets

theorem traces_oracleQueryInfo {stmt : OracleStmt} {column : Int32} {ptr : QueryInfoPtr}
    (hstmt : .stmt stmt.stmt ∈ held) (hrun : Runs (oracleQueryInfo env stmt column) w ptr w') :
    (ptr = none ∧ Traces held w w') ∨
      ∃ info, ptr = some (w.nextBlock, info) ∧ w'.nextBlock = w.nextBlock + 1 ∧
        w'.log = w.log ++ [.alloc .queryInfo w.nextBlock,
          .call (.stmtGetQueryInfo stmt.stmt (position column)) (.ok info)] := by
  rcases runs_alloc_call (fun _ => rfl) hrun with ⟨w₁, hlog, hblock, hrest⟩ |
    ⟨reply, w₁, hlog, hblock, hrest⟩
  · cases hrest
    exact .inl ⟨rfl, traces_refused hlog hblock⟩
  · cases reply with
    | error failure =>
        obtain ⟨_, w₂, hfree, hcapture⟩ := runs_bind.mp hrest
        have hptr : ptr = none := by
          obtain ⟨_, w₃, -, hreturn⟩ := runs_bind.mp hcapture
          exact (runs_pure.mp hreturn).1
        have hevent : (Event.call (.stmtGetQueryInfo stmt.stmt (position column))
            (.error failure)).Plain held :=
          ⟨by simpa [Req.uses] using hstmt, fun _ => ⟨failure, rfl⟩⟩
        have hfreed : Traces held w w₂ :=
          traces_buffer (by simp [BlockKind.IsText]) hevent (by simp) hlog hblock
            (ends_free _) hfree
        exact .inl ⟨hptr, hfreed.trans (tracks_captured _ _ _ _ hcapture)⟩
    | ok info =>
        cases hrest
        exact .inr ⟨info, rfl, hblock, hlog⟩

/-- A query-info structure is held while it is used and freed afterwards. -/
theorem tracks_withQueryInfo {stmt : OracleStmt} {action : DpiQueryInfo → Eff (World σ) α}
    (hstmt : .stmt stmt.stmt ∈ held)
    (haction : ∀ block info, Tracks (.info block :: held) (action info)) (column : Int32) :
    Tracks held (withQueryInfo env stmt column action) := by
  intro w r w' hrun
  obtain ⟨ptr, w₁, w₂, hacquire, huse, hfree⟩ := runs_bracket.mp hrun
  rcases traces_oracleQueryInfo hstmt hacquire with ⟨rfl, htraces⟩ | ⟨info, rfl, hblock, hlog⟩
  · cases huse
    cases hfree
    exact htraces
  · obtain ⟨a, w₃, haction', hreturn⟩ := runs_bind.mp huse
    obtain ⟨-, rfl⟩ := runs_pure.mp hreturn
    obtain ⟨inner, hlog', htrace⟩ := haction w.nextBlock info _ _ _ haction'
    rw [hblock] at htrace
    cases hfree
    have hheld : Nested held w.nextBlock (.alloc .queryInfo w.nextBlock ::
        .call (.stmtGetQueryInfo stmt.stmt (position column)) (.ok info) ::
          (inner ++ [.free w.nextBlock])) w₂.nextBlock := .info hstmt htrace
    refine ⟨_, ?_, hheld⟩
    rw [World.record_log, hlog', hlog]
    simp

theorem traces_prepare {conn : Connection} {sql : String} {r : Outcome Statement}
    (hconn : .conn conn.ptr ∈ held) (hrun : Runs (prepare env conn sql) w r w') :
    ((∃ err, r = .error err) ∧ Traces held w w') ∨
      ∃ stmt, r = .ok ⟨⟨w.nextBlock, conn.ptr, stmt⟩⟩ ∧ w'.nextBlock = w.nextBlock + 1 ∧
        w'.log = w.log ++ [.alloc .stmt w.nextBlock,
          .call (.connPrepareStmt conn.ptr (counted (toC sql))) (.ok stmt)] := by
  obtain ⟨ptr, w₁, hptr, hreturn⟩ := runs_bind.mp hrun
  rcases runs_alloc_call (fun _ => rfl) hptr with ⟨w₂, hlog, hblock, hrest⟩ |
    ⟨reply, w₂, hlog, hblock, hrest⟩
  · cases hrest
    cases hreturn
    exact .inl ⟨⟨_, rfl⟩, traces_refused hlog hblock⟩
  · cases reply with
    | error failure =>
        have hends : Ends held [.free w.nextBlock] (do
            oracleCaptureLastError
            free w.nextBlock
            return none : Eff (World σ) (Option OracleStmt)) :=
          tracks_captureLastError.ends fun _ => (ends_free _).return _
        have hevent : (Event.call (.connPrepareStmt conn.ptr (counted (toC sql)))
            (.error failure)).Plain held :=
          ⟨by simpa [Req.uses] using hconn, fun _ => ⟨failure, rfl⟩⟩
        have hfreed : Traces held w w₁ :=
          traces_buffer (by simp [BlockKind.IsText]) hevent (by simp) hlog hblock hends hrest
        obtain ⟨_, w₃, -, hfree⟩ := runs_bind.mp hrest
        cases hfree
        cases hreturn
        exact .inl ⟨⟨_, rfl⟩, hfreed⟩
    | ok stmt =>
        cases hrest
        cases hreturn
        exact .inr ⟨stmt, rfl, hblock, hlog⟩

/-- A statement is held while it is used and released afterwards. -/
theorem tracks_withStatement {conn : Connection} {action : Statement → Eff (World σ) (Outcome α)}
    (hconn : .conn conn.ptr ∈ held)
    (haction : ∀ stmt, stmt.ptr.conn = conn.ptr →
      Tracks (.stmt stmt.ptr.stmt :: held) (action stmt)) (sql : String) :
    Tracks held (withStatement env conn sql action) := by
  intro w r w' hrun
  obtain ⟨prepared, w₁, w₂, hacquire, huse, hrelease⟩ := runs_bracket.mp hrun
  rcases traces_prepare hconn hacquire with ⟨⟨err, rfl⟩, htraces⟩ | ⟨stmt, rfl, hblock, hlog⟩
  · cases huse
    cases hrelease
    exact htraces
  · obtain ⟨inner, hlog', htrace⟩ := haction _ rfl _ _ _ huse
    rw [hblock] at htrace
    cases hrelease
    have hheld : Nested held w.nextBlock (.alloc .stmt w.nextBlock ::
        .call (.connPrepareStmt conn.ptr (counted (toC sql))) (.ok stmt) ::
          (inner ++ [.release (.stmt stmt), .free w.nextBlock])) w₂.nextBlock := .stmt hconn htrace
    refine ⟨_, ?_, hheld⟩
    simp [World.record, hlog', hlog]

theorem tracks_oracleInitContext : Tracks held (oracleInitContext env) := by
  intro w ready w' hrun
  obtain ⟨_, _, hget, hrest⟩ := runs_bind.mp hrun
  cases hget
  split at hrest
  · cases hrest
    exact Traces.refl _
  · obtain ⟨reply, w₁, hcall, hrest⟩ := runs_bind.mp hrest
    have hcalled : Traces held w w₁ :=
      tracks_odpi (by simp [Req.uses]) (by simp [Req.Acquires]) _ _ _ hcall
    obtain ⟨delta, hlog, htrace⟩ := hcalled
    cases reply with
    | error err =>
        cases hrest
        exact ⟨delta, hlog, htrace⟩
    | ok u =>
        cases hrest
        exact ⟨delta, hlog, htrace⟩

theorem traces_connect {cfg : ConnectInfo} {r : Outcome Connection}
    (hrun : Runs (connect env cfg) w r w') :
    ((∃ err, r = .error err) ∧ Traces held w w') ∨
      ∃ conn w₁ username password connectString, r = .ok ⟨conn⟩ ∧ Traces held w w₁ ∧
        w'.nextBlock = w₁.nextBlock ∧
        w'.log = w₁.log ++ [.call (.connCreate username password connectString) (.ok conn)] := by
  obtain ⟨ptr, w₁, hptr, hreturn⟩ := runs_bind.mp hrun
  obtain ⟨ready, w₂, hinit, hrest⟩ := runs_bind.mp hptr
  have hready : Traces held w w₂ := tracks_oracleInitContext _ _ _ hinit
  cases ready with
  | false =>
      cases hrest
      cases hreturn
      exact .inl ⟨⟨_, rfl⟩, hready⟩
  | true =>
      obtain ⟨reply, w₃, hcall, hrest⟩ := runs_bind.mp hrest
      have hcalled : w₃.log = w₂.log ++ [.call (.connCreate (counted (toC cfg.username))
          (counted (toC cfg.password)) (counted (toC (connectString cfg)))) reply] ∧
          w₃.nextBlock = w₂.nextBlock := by
        cases hcall
        exact ⟨rfl, rfl⟩
      obtain ⟨hlog, hblock⟩ := hcalled
      cases reply with
      | error failure =>
          cases hrest
          cases hreturn
          have hevent : (Event.call (.connCreate (counted (toC cfg.username))
              (counted (toC cfg.password)) (counted (toC (connectString cfg))))
              (.error failure)).Plain held :=
            ⟨by simp [Req.uses], fun _ => ⟨failure, rfl⟩⟩
          exact .inl ⟨⟨_, rfl⟩, hready.trans ⟨_, hlog, hblock ▸ .plain hevent⟩⟩
      | ok conn =>
          cases hrest
          cases hreturn
          exact .inr ⟨conn, w₂, _, _, _, rfl, hready, hblock, hlog⟩

/-- A connection is held while it is used and released afterwards. -/
theorem tracks_withConnection {cfg : ConnectInfo}
    {action : Connection → Eff (World σ) (Outcome α)}
    (haction : ∀ conn, Tracks (.conn conn.ptr :: held) (action conn)) :
    Tracks held (withConnection env cfg action) := by
  intro w r w' hrun
  obtain ⟨connected, w₁, w₂, hacquire, huse, hrelease⟩ := runs_bracket.mp hrun
  rcases traces_connect hacquire with ⟨⟨err, rfl⟩, htraces⟩ |
    ⟨conn, w₃, username, password, connectString, rfl, htraces, hblock, hlog⟩
  · cases huse
    cases hrelease
    exact htraces
  · obtain ⟨inner, hlog', htrace⟩ := haction _ _ _ _ huse
    rw [hblock] at htrace
    cases hrelease
    have hheld : Nested held w₃.nextBlock (.call (.connCreate username password connectString)
        (.ok conn) :: (inner ++ [.release (.conn conn)])) w₂.nextBlock := .conn htrace
    refine htraces.trans ⟨_, ?_, hheld⟩
    simp [World.record, hlog', hlog]

end Brackets

section Columns

variable {stmt : OracleStmt}

theorem tracks_getColumnInfo (hstmt : .stmt stmt.stmt ∈ held) (column : Int32) :
    Tracks held (getColumnInfo env stmt column) := by
  refine tracks_withQueryInfo hstmt (fun block info => ?_) column
  refine Tracks.seq ((tracks_malloc .infoName trivial _).seq fun block => ?_) fun _ => Tracks.pure _
  cases block with
  | none => exact Tracks.pure _
  | some block => exact Tracks.pure _

theorem tracks_oracleDataString (data : DpiData) : Tracks held (oracleDataString env data) := by
  refine (tracks_readMember _ _).seq fun bytes => ?_
  cases bytes with
  | none => exact Tracks.pure _
  | some bytes =>
      refine (tracks_malloc .string trivial _).seq fun block => ?_
      cases block with
      | none => exact Tracks.pure _
      | some block => exact Tracks.pure _

theorem tracks_oracleDataBytesHex (data : DpiData) :
    Tracks held (oracleDataBytesHex env data) := by
  refine (tracks_readMember _ _).seq fun bytes => ?_
  refine (tracks_malloc .bytesHex trivial _).seq fun block => ?_
  cases block with
  | none => exact Tracks.pure _
  | some block => exact Tracks.pure _

theorem tracks_oracleLobSize (lob : Option DpiLob) : Tracks held (oracleLobSize env lob) := by
  cases lob with
  | none => exact Tracks.pure _
  | some lob =>
      exact tracks_call (by simp [Req.uses]) (by simp [Req.Acquires])
        (fun _ => tracks_captured _) fun _ => Tracks.pure _

theorem tracks_oracleLobRelease (lob : Option DpiLob) :
    Tracks held (oracleLobRelease env lob) := by
  cases lob with
  | none => exact Tracks.pure _
  | some lob => exact tracks_release trivial

theorem tracks_acquire (dataptr : DpiData) (ty : OracleType) :
    Tracks held (decodeColumn.acquire dataptr ty : Eff (World σ) DecodePtr) := by
  cases ty <;> first
    | exact Tracks.pure _
    | exact (tracks_readMember _ _).seq fun _ => Tracks.pure _

theorem tracks_decodeRelease (ptr : DecodePtr) (ty : OracleType) :
    Tracks held (decodeColumn.release env ptr ty) := by
  cases ty <;> cases ptr <;> first
    | exact Tracks.pure _
    | exact tracks_oracleLobRelease _

theorem tracks_use (ptr : DecodePtr) (ty : OracleType) :
    Tracks held (decodeColumn.use env ptr ty) := by
  unfold decodeColumn.use
  split
  · exact tracks_lastError
  · exact tracks_lastError
  · refine (tracks_oracleLobSize _).seq fun size => ?_
    split
    · exact tracks_lastError
    · exact (tracks_oracleLobRead _ _ _).seq fun _ => Tracks.pure _
  · exact (tracks_oracleClobRead _).seq fun _ => Tracks.pure _
  · refine (tracks_oracleDataBytesHex _).seq fun hex => ?_
    split <;> exact Tracks.pure _
  · exact Tracks.pure _

theorem tracks_value (dataptr : DpiData) (ty : OracleType) :
    Tracks held (decodeColumn.value env dataptr ty) := by
  have hbracket : Tracks held (decodeColumn.withDataPtrAndOracleType env dataptr ty) :=
    Tracks.bracket (tracks_acquire _ _) (fun _ => tracks_use _ _) fun _ => tracks_decodeRelease _ _
  cases ty with
  | oracleTypeVarchar | oracleTypeChar | oracleTypeNVarchar | oracleTypeNChar =>
      exact (tracks_oracleDataString _).seq fun _ => Tracks.pure _
  | oracleTypeRaw | oracleTypeBlob | oracleTypeClob => exact hbracket
  | oracleTypeBoolean =>
      refine (tracks_readMember _ _).seq fun b => ?_
      split <;> exact Tracks.pure _
  | oracleTypeUnknown n => exact Tracks.pure _
  | _ => exact (tracks_readMember _ _).seq fun _ => Tracks.pure _

theorem tracks_decodeColumn (hstmt : .stmt stmt.stmt ∈ held) (column : Int32) :
    Tracks held (decodeColumn env stmt column) := by
  rw [decodeColumn_eq]
  refine (tracks_getColumnInfo hstmt column).andThen fun info => ?_
  have hvalue : Tracks held (oracleColumnValue env stmt column) :=
    tracks_call (by simpa [Req.uses] using hstmt) (by simp [Req.Acquires])
      (fun _ => tracks_captured _) fun _ => Tracks.pure _
  refine hvalue.seq fun data => ?_
  cases data with
  | none => exact tracks_lastError
  | some data =>
      dsimp only
      split
      · exact Tracks.pure _
      · exact tracks_value _ _

end Columns

section Statements

variable {stmt : Statement}

theorem tracks_bindOne (hstmt : .stmt stmt.ptr.stmt ∈ held) (hconn : .conn stmt.ptr.conn ∈ held)
    (param : BindParameter) : Tracks held (bindOne env stmt param) := by
  have hnative : ∀ native data, Tracks held
      (oracleBindNative env stmt.ptr (toC param.name) native data) := fun native data =>
    tracks_call (by simpa [Req.uses] using hstmt) (by simp [Req.Acquires])
      (fun _ => tracks_captured _) fun _ => Tracks.pure _
  have htyped : ∀ ty native data, Tracks held
      (oracleBindTyped env stmt.ptr (toC param.name) ty native data) := by
    intro ty native data
    refine tracks_call (by simpa [Req.uses] using hconn) (by simp [Req.Acquires])
      (fun _ => tracks_captured _) fun var => ?_
    have hrelease : Tracks held (odpiRelease env (.var var)) := tracks_release trivial
    refine (tracks_storeVar _ _).seq fun _ => ?_
    refine tracks_call (by simpa [Req.uses] using hstmt) (by simp [Req.Acquires])
      (fun _ => ?_) fun _ => ?_
    · exact tracks_captureLastError.seq fun _ => hrelease.seq fun _ => Tracks.pure _
    · exact hrelease.seq fun _ => Tracks.pure _
  refine Tracks.seq ?_ fun rc => tracks_finish rc
  cases param.value with
  | oracleBinaryFloat f => exact htyped _ _ _
  | oracleBinaryDouble d => exact htyped _ _ _
  | _ => exact hnative _ _

theorem tracks_bind (hstmt : .stmt stmt.ptr.stmt ∈ held) (hconn : .conn stmt.ptr.conn ∈ held)
    (params : List BindParameter) : Tracks held (bind env stmt params) := by
  induction params with
  | nil => exact Tracks.pure _
  | cons param params ih =>
      refine (tracks_bindOne hstmt hconn param).seq fun result => ?_
      cases result with
      | error err => exact Tracks.pure _
      | ok u => exact ih

theorem tracks_execute (hstmt : .stmt stmt.ptr.stmt ∈ held) : Tracks held (execute env stmt) := by
  have hexecute : Tracks held (oracleExecuteStmt env stmt.ptr) :=
    tracks_call (by simpa [Req.uses] using hstmt) (by simp [Req.Acquires])
      (fun _ => tracks_captured _) fun _ => Tracks.pure _
  exact hexecute.seq fun rc => tracks_finish rc

theorem tracks_go (hstmt : .stmt stmt.ptr.stmt ∈ held) (count index : Int32)
    (acc : List OracleValue) : Tracks held (fetchRow.go env stmt count index acc) := by
  induction index, acc using fetchRow.go.induct count with
  | case1 index acc hdone =>
      rw [fetchRow.go_done env hdone]
      exact Tracks.pure _
  | case2 index acc hnext ih =>
      rw [fetchRow.go_next env (Int32.not_le.mp hnext)]
      exact (tracks_decodeColumn hstmt index).andThen fun v => ih v

theorem tracks_fetchRow (hstmt : .stmt stmt.ptr.stmt ∈ held) : Tracks held (fetchRow env stmt) := by
  have hfetch : Tracks held (oracleFetch env stmt.ptr) :=
    tracks_call (by simpa [Req.uses] using hstmt) (by simp [Req.Acquires])
      (fun _ => tracks_captured _) fun _ => Tracks.pure _
  have hcount : Tracks held (oracleColumnCount env stmt.ptr) :=
    tracks_call (by simpa [Req.uses] using hstmt) (by simp [Req.Acquires])
      (fun _ => tracks_captured _) fun _ => Tracks.pure _
  refine hfetch.seq fun rc => ?_
  split
  · exact tracks_lastError
  · split
    · exact Tracks.pure _
    · refine hcount.seq fun count => (tracks_go hstmt count 0 []).seq fun row => ?_
      cases row with
      | error err => exact Tracks.pure _
      | ok values => exact Tracks.pure _

theorem tracks_fetchRaw (hstmt : .stmt stmt.ptr.stmt ∈ held) (fuel : Nat) :
    Tracks held (fetchRaw env fuel stmt) := by
  suffices hloop : ∀ fuel acc, Tracks held (fetchRaw.loop env stmt fuel acc) from hloop fuel []
  intro fuel
  induction fuel with
  | zero =>
      intro acc w r w' hrun
      cases hrun
  | succ fuel ih =>
      intro acc
      refine (tracks_fetchRow hstmt).seq fun row => ?_
      cases row with
      | error err => exact Tracks.pure _
      | ok row =>
          cases row with
          | none => exact Tracks.pure _
          | some values => exact ih _

variable {conn : Connection}

theorem tracks_queryRaw (hconn : .conn conn.ptr ∈ held) (fuel : Nat) (sql : String)
    (params : List BindParameter) : Tracks held (queryRaw env fuel conn sql params) := by
  refine tracks_withStatement hconn (fun stmt hptr => ?_) sql
  have hstmt : .stmt stmt.ptr.stmt ∈ .stmt stmt.ptr.stmt :: held := List.mem_cons_self
  have hconn' : .conn stmt.ptr.conn ∈ .stmt stmt.ptr.stmt :: held :=
    List.mem_cons_of_mem _ (hptr ▸ hconn)
  exact (tracks_bind hstmt hconn' params).andThen fun _ =>
    (tracks_execute hstmt).andThen fun _ => tracks_fetchRaw hstmt fuel

theorem tracks_execute_ (hconn : .conn conn.ptr ∈ held) (sql : String)
    (params : List BindParameter) : Tracks held (execute_ env conn sql params) := by
  refine tracks_withStatement hconn (fun stmt hptr => ?_) sql
  have hstmt : .stmt stmt.ptr.stmt ∈ .stmt stmt.ptr.stmt :: held := List.mem_cons_self
  have hconn' : .conn stmt.ptr.conn ∈ .stmt stmt.ptr.stmt :: held :=
    List.mem_cons_of_mem _ (hptr ▸ hconn)
  exact (tracks_bind hstmt hconn' params).andThen fun _ => tracks_execute hstmt

end Statements

end IdrisOracle
