import IdrisOracle.Statement

/-! Relations that the library preserves because each of its primitive steps does. -/

namespace IdrisOracle

open Effect

/-- What a request is for. -/
inductive Req.Group where
  | connect
  | transaction
  | prepare
  | bind
  | execute
  | fetch
  | describe
  | value
  | lob

def Req.group : Req → Req.Group
  | .contextCreate | .connCreate .. => .connect
  | .connCommit _ | .connRollback _ => .transaction
  | .connPrepareStmt .. => .prepare
  | .connNewVar .. | .stmtBindByName .. | .stmtBindValueByName .. => .bind
  | .stmtExecute _ => .execute
  | .stmtFetch _ => .fetch
  | .stmtGetNumQueryColumns _ | .stmtGetQueryInfo .. => .describe
  | .stmtGetQueryValue .. => .value
  | .lobGetSize _ | .lobGetBufferSize .. | .lobReadBytes .. => .lob

inductive HandleKind where
  | conn
  | stmt
  | var
  | lob

def Handle.kind : Handle → HandleKind
  | .conn _ => .conn
  | .stmt _ => .stmt
  | .var _ => .var
  | .lob _ => .lob

variable {σ α β : Type} {env : Env σ}

/-- The relation holds across every primitive step with the allowed calls and releases. -/
structure Follows (env : Env σ) (calls : Req.Group → Prop) (releases : HandleKind → Prop)
    (R : World σ → World σ → Prop) : Prop where
  refl : ∀ w, R w w
  trans : ∀ u v w, R u v → R v w → R u w
  called : ∀ req w, calls req.group → R w (w.called env req)
  released : ∀ handle w, releases handle.kind → R w (w.released env handle)
  stored : ∀ var data w, R w { w with odpi := env.storeVar var data w.odpi }
  allocated : ∀ kind size w, R w (w.allocated env kind size)
  refused : ∀ kind size w, (env.malloc kind size w.odpi).1 = false → R w (w.refused env kind size)
  freed : ∀ block w, R w (w.record (.free block))
  read : ∀ member w, R w (w.record (.read member))
  captured : ∀ error w, R w (w.captured error)
  ready : ∀ w, R w { w with gContext := true }

variable {calls : Req.Group → Prop} {releases : HandleKind → Prop}
  {R : World σ → World σ → Prop}

namespace Follows

variable (F : Follows env calls releases R)

include F

theorem pure (a : α) : Preserves R (Pure.pure a : Eff (World σ) α) := Preserves.pure F.refl a

theorem seq {m : Eff (World σ) α} {f : α → Eff (World σ) β} (hm : Preserves R m)
    (hf : ∀ a, Preserves R (f a)) : Preserves R (m >>= f) :=
  Preserves.bind hm F.trans hf

theorem bracket {ρ : Type} {acquire : Eff (World σ) ρ} {use : ρ → Eff (World σ) α}
    {release : ρ → Eff (World σ) Unit} (hacquire : Preserves R acquire)
    (huse : ∀ r, Preserves R (use r)) (hrelease : ∀ r, Preserves R (release r)) :
    Preserves R (Effect.bracket acquire use release) :=
  Preserves.bracket F.trans F.refl hacquire huse hrelease

theorem andThen {m : Eff (World σ) (Outcome α)} {f : α → Eff (World σ) (Outcome β)}
    (hm : Preserves R m) (hf : ∀ a, Preserves R (f a)) :
    Preserves R (IdrisOracle.andThen m f) := by
  refine F.seq hm fun result => ?_
  cases result with
  | error err => exact F.pure _
  | ok a => exact hf a

end Follows

variable (F : Follows env calls releases R)

include F

section Primitives

theorem preserves_odpi {req : Req} (hcalls : calls req.group) : Preserves R (odpi env req) :=
  Preserves.step _ fun w => F.called req w hcalls

theorem preserves_odpiRelease {handle : Handle} (hreleases : releases handle.kind) :
    Preserves R (odpiRelease env handle) :=
  Preserves.step _ fun w => F.released handle w hreleases

theorem preserves_storeVar (var : DpiVar) (data : DpiData) : Preserves R (storeVar env var data) :=
  Preserves.step _ fun w => F.stored var data w

theorem preserves_free (block : Nat) : Preserves R (free block : Eff (World σ) Unit) :=
  Preserves.step _ fun w => F.freed block w

theorem preserves_readMember (member : Member) (a : α) :
    Preserves R (readMember member a : Eff (World σ) α) :=
  Preserves.step _ fun w => F.read member w

theorem preserves_malloc (kind : BlockKind) (size : Nat) : Preserves R (malloc env kind size) := by
  intro w
  cases hmalloc : (env.malloc kind size w.odpi).1 with
  | true => exact ⟨some w.nextBlock, _, by simp [Runs, hmalloc], F.allocated kind size w⟩
  | false => exact ⟨none, _, by simp [Runs, hmalloc], F.refused kind size w hmalloc⟩

theorem preserves_oracleCaptureError (error : DpiErrorInfo) :
    Preserves R (oracleCaptureError error : Eff (World σ) Unit) :=
  fun w => ⟨_, _, rfl, F.captured error w⟩

theorem preserves_oracleCaptureLastError :
    Preserves R (oracleCaptureLastError : Eff (World σ) Unit) := by
  intro w
  refine ⟨_, _, oracleCaptureLastError_apply w, ?_⟩
  rw [World.capturedLast]
  split
  · exact F.captured _ w
  · exact F.refl w

theorem preserves_getLastError : Preserves R (getLastError env) :=
  fun w => ⟨_, w, rfl, F.refl w⟩

theorem preserves_finish (rc : Int32) : Preserves R (finish env rc) :=
  fun w => ⟨_, w, finish_apply env rc w, F.refl w⟩

/-- A call, with what follows its failure and its success. -/
theorem preserves_call {req : Req} (hcalls : calls req.group)
    {k : Except DpiError req.Resp → Eff (World σ) α} (herror : ∀ err, Preserves R (k (.error err)))
    (hok : ∀ reply, Preserves R (k (.ok reply))) : Preserves R (odpi env req >>= k) := by
  refine F.seq (preserves_odpi F hcalls) fun result => ?_
  cases result with
  | error err => exact herror err
  | ok reply => exact hok reply

/-- The end of a function that failed. -/
theorem preserves_captured (a : α) :
    Preserves R (do
      oracleCaptureLastError
      return a : Eff (World σ) α) :=
  F.seq (preserves_oracleCaptureLastError F) fun _ => F.pure _

end Primitives

section Shim

theorem preserves_oracleQueryInfo (hcalls : calls .describe) (stmt : OracleStmt) (column : Int32) :
    Preserves R (oracleQueryInfo env stmt column) := by
  refine F.seq (preserves_malloc F _ _) fun block => ?_
  cases block with
  | none => exact F.pure _
  | some block =>
      refine F.seq (preserves_odpi F hcalls) fun result => ?_
      cases result with
      | error err =>
          exact F.seq (preserves_free F _) fun _ => preserves_captured F _
      | ok info => exact F.pure _

theorem preserves_oracleQueryInfoFree (info : QueryInfoPtr) :
    Preserves R (oracleQueryInfoFree info : Eff (World σ) Unit) := by
  cases info with
  | none => exact F.pure _
  | some info => exact preserves_free F _

theorem preserves_oracleQueryInfoName (info : DpiQueryInfo) :
    Preserves R (oracleQueryInfoName env info) := by
  refine F.seq (preserves_malloc F _ _) fun block => ?_
  cases block with
  | none => exact F.pure _
  | some block => exact F.pure _

theorem preserves_oracleDataString (data : DpiData) : Preserves R (oracleDataString env data) := by
  refine F.seq (preserves_readMember F _ _) fun bytes => ?_
  cases bytes with
  | none => exact F.pure _
  | some bytes =>
      refine F.seq (preserves_malloc F _ _) fun block => ?_
      cases block with
      | none => exact F.pure _
      | some block => exact F.pure _

theorem preserves_oracleDataBytesHex (data : DpiData) :
    Preserves R (oracleDataBytesHex env data) := by
  refine F.seq (preserves_readMember F _ _) fun bytes =>
    F.seq (preserves_malloc F _ _) fun block => ?_
  cases block with
  | none => exact F.pure _
  | some block => exact F.pure _

theorem preserves_oracleLobSize (hcalls : calls .lob) (lob : Option DpiLob) :
    Preserves R (oracleLobSize env lob) := by
  cases lob with
  | none => exact F.pure _
  | some lob =>
      refine F.seq (preserves_odpi F hcalls) fun result => ?_
      cases result with
      | error err => exact preserves_captured F _
      | ok size => exact F.pure _

theorem preserves_oracleLobRead (hcalls : calls .lob) (lob : Option DpiLob)
    (offset length : Int64) :
    Preserves R (oracleLobRead env lob offset length) := by
  cases lob with
  | none => exact F.pure _
  | some lob =>
      refine F.seq (preserves_malloc F _ _) fun buffer => ?_
      cases buffer with
      | none => exact F.pure _
      | some buffer =>
          refine F.seq (preserves_odpi F hcalls) fun result => ?_
          cases result with
          | error err =>
              exact F.seq (preserves_oracleCaptureLastError F) fun _ =>
                F.seq (preserves_free F _) fun _ => F.pure _
          | ok bytes =>
              refine F.seq (preserves_malloc F _ _) fun hex => ?_
              cases hex with
              | none => exact F.seq (preserves_free F _) fun _ => F.pure _
              | some hex => exact F.seq (preserves_free F _) fun _ => F.pure _

theorem preserves_oracleLobRelease (hreleases : releases .lob) (lob : Option DpiLob) :
    Preserves R (oracleLobRelease env lob) := by
  cases lob with
  | none => exact F.pure _
  | some lob => exact preserves_odpiRelease F hreleases

theorem preserves_oracleClobRead (hcalls : calls .lob) (lob : Option DpiLob) :
    Preserves R (oracleClobRead env lob) := by
  cases lob with
  | none => exact F.pure _
  | some lob =>
      refine F.seq (preserves_odpi F hcalls) fun size => ?_
      cases size with
      | error err => exact preserves_captured F _
      | ok chars =>
          refine F.seq (preserves_odpi F hcalls) fun size => ?_
          cases size with
          | error err => exact preserves_captured F _
          | ok bytes =>
              refine F.seq (preserves_malloc F _ _) fun buffer => ?_
              cases buffer with
              | none => exact F.pure _
              | some buffer =>
                  refine F.seq (preserves_odpi F hcalls) fun result => ?_
                  cases result with
                  | error err =>
                      exact F.seq (preserves_oracleCaptureLastError F) fun _ =>
                        F.seq (preserves_free F _) fun _ => F.pure _
                  | ok text => exact F.pure _

theorem preserves_oracleColumnValue (hcalls : calls .value) (stmt : OracleStmt) (column : Int32) :
    Preserves R (oracleColumnValue env stmt column) :=
  preserves_call F (by exact hcalls) (fun _ => preserves_captured F _) fun _ => F.pure _

theorem preserves_oracleColumnCount (hcalls : calls .describe) (stmt : OracleStmt) :
    Preserves R (oracleColumnCount env stmt) :=
  preserves_call F (by exact hcalls) (fun _ => preserves_captured F _) fun _ => F.pure _

theorem preserves_oraclePrepareStmt (hcalls : calls .prepare) (conn : DpiConn) (sql : List UInt8) :
    Preserves R (oraclePrepareStmt env conn sql) := by
  refine F.seq (preserves_malloc F _ _) fun block => ?_
  cases block with
  | none => exact F.pure _
  | some block =>
      refine F.seq (preserves_odpi F hcalls) fun result => ?_
      cases result with
      | error err =>
          exact F.seq (preserves_oracleCaptureLastError F) fun _ =>
            F.seq (preserves_free F _) fun _ => F.pure _
      | ok stmt => exact F.pure _

theorem preserves_oracleReleaseStmt (hreleases : releases .stmt) (stmt : OracleStmt) :
    Preserves R (oracleReleaseStmt env stmt) :=
  F.seq (preserves_odpiRelease F hreleases) fun _ => preserves_free F _

theorem preserves_oracleExecuteStmt (hcalls : calls .execute) (stmt : OracleStmt) :
    Preserves R (oracleExecuteStmt env stmt) :=
  preserves_call F (by exact hcalls) (fun _ => preserves_captured F _) fun _ => F.pure _

theorem preserves_oracleFetch (hcalls : calls .fetch) (stmt : OracleStmt) :
    Preserves R (oracleFetch env stmt) :=
  preserves_call F (by exact hcalls) (fun _ => preserves_captured F _) fun _ => F.pure _

theorem preserves_oracleCommit (hcalls : calls .transaction) (conn : DpiConn) :
    Preserves R (oracleCommit env conn) :=
  preserves_call F (by exact hcalls) (fun _ => preserves_captured F _) fun _ => F.pure _

theorem preserves_oracleRollback (hcalls : calls .transaction) (conn : DpiConn) :
    Preserves R (oracleRollback env conn) :=
  preserves_call F (by exact hcalls) (fun _ => preserves_captured F _) fun _ => F.pure _

theorem preserves_oracleBindNative (hcalls : calls .bind) (stmt : OracleStmt) (name : List UInt8)
    (native : DpiNativeTypeNum) (data : DpiData) :
    Preserves R (oracleBindNative env stmt name native data) :=
  preserves_call F (by exact hcalls) (fun _ => preserves_captured F _) fun _ => F.pure _

theorem preserves_oracleBindTyped (hcalls : calls .bind) (hreleases : releases .var)
    (stmt : OracleStmt) (name : List UInt8) (oracleType : DpiOracleTypeNum)
    (native : DpiNativeTypeNum) (data : DpiData) :
    Preserves R (oracleBindTyped env stmt name oracleType native data) := by
  refine F.seq (preserves_odpi F hcalls) fun result => ?_
  cases result with
  | error err => exact preserves_captured F _
  | ok var =>
      refine F.seq (preserves_storeVar F _ _) fun _ =>
        F.seq (preserves_odpi F hcalls) fun result => ?_
      cases result with
      | error err =>
          exact F.seq (preserves_oracleCaptureLastError F) fun _ =>
            F.seq (preserves_odpiRelease F hreleases) fun _ => F.pure _
      | ok reply => exact F.seq (preserves_odpiRelease F hreleases) fun _ => F.pure _

theorem preserves_oracleInitContext (hcalls : calls .connect) :
    Preserves R (oracleInitContext env) := by
  have hget : Preserves R (get : Eff (World σ) (World σ)) := fun w => ⟨w, w, rfl, F.refl w⟩
  have hready : Preserves R (modify fun w => { w with gContext := true } : Eff (World σ) Unit) :=
    fun w => ⟨_, _, rfl, F.ready w⟩
  refine F.seq hget fun w => ?_
  split
  · exact F.pure _
  · refine F.seq (preserves_odpi F hcalls) fun result => ?_
    cases result with
    | error err => exact F.seq (preserves_oracleCaptureError F _) fun _ => F.pure _
    | ok reply => exact F.seq hready fun _ => F.pure _

theorem preserves_oracleConnect (hcalls : calls .connect)
    (username password connectString : List UInt8) :
    Preserves R (oracleConnect env username password connectString) := by
  refine F.seq (preserves_oracleInitContext F hcalls) fun ready => ?_
  cases ready with
  | false => exact F.pure _
  | true =>
      refine F.seq (preserves_odpi F hcalls) fun result => ?_
      cases result with
      | error err => exact F.seq (preserves_oracleCaptureError F _) fun _ => F.pure _
      | ok conn => exact F.pure _

end Shim

section Library

theorem preserves_connect (hcalls : calls .connect) (cfg : ConnectInfo) :
    Preserves R (connect env cfg) := by
  refine F.seq (preserves_oracleConnect F hcalls _ _ _) fun ptr => ?_
  cases ptr with
  | none => exact F.seq (preserves_getLastError F) fun _ => F.pure _
  | some ptr => exact F.pure _

theorem preserves_prepare (hcalls : calls .prepare) (conn : Connection) (sql : String) :
    Preserves R (prepare env conn sql) := by
  refine F.seq (preserves_oraclePrepareStmt F hcalls _ _) fun ptr => ?_
  cases ptr with
  | none => exact F.seq (preserves_getLastError F) fun _ => F.pure _
  | some ptr => exact F.pure _

theorem preserves_bindOne (hcalls : calls .bind) (hreleases : releases .var) (stmt : Statement)
    (param : BindParameter) :
    Preserves R (bindOne env stmt param) := by
  refine F.seq ?_ fun _ => preserves_finish F _
  cases param.value with
  | oracleBinaryFloat f => exact preserves_oracleBindTyped F hcalls hreleases _ _ _ _ _
  | oracleBinaryDouble d => exact preserves_oracleBindTyped F hcalls hreleases _ _ _ _ _
  | _ => exact preserves_oracleBindNative F hcalls _ _ _ _

theorem preserves_withQueryInfo_use {action : DpiQueryInfo → Eff (World σ) α}
    (haction : ∀ info, Preserves R (action info)) (ptr : QueryInfoPtr) :
    Preserves R (withQueryInfo.use env action ptr) := by
  cases ptr with
  | none => exact F.seq (preserves_getLastError F) fun _ => F.pure _
  | some info => exact F.seq (haction _) fun _ => F.pure _

theorem preserves_columnInfo (info : DpiQueryInfo) : Preserves R (do
    let name ← oracleQueryInfoName env info
    return (⟨fromC env name, fromOracleTypeNum (oracleQueryInfoType info),
      (oracleQueryInfoSize info).toInt32.toInt.toNat, oracleQueryInfoNullable info ≠ 0⟩ :
      ColumnInfo)) :=
  F.seq (preserves_oracleQueryInfoName F _) fun _ => F.pure _

theorem preserves_getColumnInfo (hcalls : calls .describe) (stmt : OracleStmt) (column : Int32) :
    Preserves R (getColumnInfo env stmt column) :=
  F.bracket (preserves_oracleQueryInfo F hcalls _ _)
    (preserves_withQueryInfo_use F (preserves_columnInfo F)) (preserves_oracleQueryInfoFree F)

theorem preserves_acquire (dataptr : DpiData) (ty : OracleType) :
    Preserves R (decodeColumn.acquire dataptr ty : Eff (World σ) DecodePtr) := by
  cases ty <;> first
    | exact F.pure _
    | exact F.seq (preserves_readMember F _ _) fun _ => F.pure _

theorem preserves_release {ty : OracleType} (hreleases : ty ≠ .oracleTypeRaw → releases .lob)
    (ptr : DecodePtr) : Preserves R (decodeColumn.release env ptr ty) := by
  cases ty <;> cases ptr <;> first
    | exact F.pure _
    | exact preserves_oracleLobRelease F (hreleases (by simp)) _

theorem preserves_use (hcalls : calls .lob) (ptr : DecodePtr) (ty : OracleType) :
    Preserves R (decodeColumn.use env ptr ty) := by
  unfold decodeColumn.use
  split
  · exact F.seq (preserves_getLastError F) fun _ => F.pure _
  · exact F.seq (preserves_getLastError F) fun _ => F.pure _
  · refine F.seq (preserves_oracleLobSize F hcalls _) fun size => ?_
    split
    · exact F.seq (preserves_getLastError F) fun _ => F.pure _
    · exact F.seq (preserves_oracleLobRead F hcalls _ _ _) fun _ => F.pure _
  · exact F.seq (preserves_oracleClobRead F hcalls _) fun _ => F.pure _
  · refine F.seq (preserves_oracleDataBytesHex F _) fun hex => ?_
    split <;> exact F.pure _
  · exact F.pure _

theorem preserves_withDataPtr (hcalls : calls .lob) {ty : OracleType}
    (hreleases : ty ≠ .oracleTypeRaw → releases .lob) (dataptr : DpiData) :
    Preserves R (decodeColumn.withDataPtrAndOracleType env dataptr ty) :=
  F.bracket (preserves_acquire F _ _) (fun _ => preserves_use F hcalls _ _) fun _ =>
    preserves_release F hreleases _

theorem preserves_value (hcalls : calls .lob) {ty : OracleType}
    (hreleases : ty.IsLob → releases .lob) (dataptr : DpiData) :
    Preserves R (decodeColumn.value env dataptr ty) := by
  cases ty <;> first
    | exact F.pure _
    | exact preserves_withDataPtr F hcalls (fun hne => absurd rfl hne) _
    | exact preserves_withDataPtr F hcalls (fun _ => hreleases (by simp [OracleType.IsLob])) _
    | exact F.seq (preserves_oracleDataString F _) fun _ => F.pure _
    | exact F.seq (preserves_readMember F _ _) fun _ => F.pure _
    | skip
  refine F.seq (preserves_readMember F _ _) fun b => ?_
  split <;> exact F.pure _

theorem preserves_cell (hcalls : calls .value) (stmt : OracleStmt) (column : Int32)
    {ty : OracleType} (hvalue : ∀ data, Preserves R (decodeColumn.value env data ty)) :
    Preserves R (decodeColumn.cell env stmt column ty) := by
  refine F.seq (preserves_oracleColumnValue F hcalls _ _) fun data => ?_
  cases data with
  | none => exact F.seq (preserves_getLastError F) fun _ => F.pure _
  | some data =>
      dsimp only
      split
      · exact F.pure _
      · exact hvalue data

theorem preserves_decodeColumn (hcalls : calls .describe) (stmt : OracleStmt) (column : Int32)
    (hcell : ∀ ty, Preserves R (decodeColumn.cell env stmt column ty)) :
    Preserves R (decodeColumn env stmt column) := by
  rw [decodeColumn_eq]
  exact F.andThen (preserves_getColumnInfo F hcalls _ _) fun info => hcell _

theorem preserves_go (stmt : Statement) (count index : Int32) (acc : List OracleValue)
    (hdecode : ∀ column, Preserves R (decodeColumn env stmt.ptr column)) :
    Preserves R (fetchRow.go env stmt count index acc) := by
  induction index, acc using fetchRow.go.induct count with
  | case1 index acc hdone =>
      rw [fetchRow.go_done env hdone]
      exact F.pure _
  | case2 index acc hnext ih =>
      rw [fetchRow.go_next env (Int32.not_le.mp hnext)]
      exact F.andThen (hdecode _) fun v => ih v

theorem preserves_fetchRow (hfetch : calls .fetch) (hdescribe : calls .describe) (stmt : Statement)
    (hdecode : ∀ column, Preserves R (decodeColumn env stmt.ptr column)) :
    Preserves R (fetchRow env stmt) := by
  refine F.seq (preserves_oracleFetch F hfetch _) fun rc => ?_
  split
  · exact F.seq (preserves_getLastError F) fun _ => F.pure _
  · split
    · exact F.pure _
    · refine F.seq (preserves_oracleColumnCount F hdescribe _) fun count =>
        F.seq (preserves_go F _ _ _ _ hdecode) fun row => ?_
      cases row with
      | error err => exact F.pure _
      | ok values => exact F.pure _

theorem preserves_commit (hcalls : calls .transaction) (conn : Connection) :
    Preserves R (commit env conn) :=
  F.seq (preserves_oracleCommit F hcalls _) fun _ => preserves_finish F _

theorem preserves_rollback (hcalls : calls .transaction) (conn : Connection) :
    Preserves R (rollback env conn) :=
  F.seq (preserves_oracleRollback F hcalls _) fun _ => preserves_finish F _

theorem preserves_execute (hcalls : calls .execute) (stmt : Statement) :
    Preserves R (execute env stmt) :=
  F.seq (preserves_oracleExecuteStmt F hcalls _) fun _ => preserves_finish F _

theorem preserves_bind (hcalls : calls .bind) (hreleases : releases .var) (stmt : Statement)
    (params : List BindParameter) : Preserves R (bind env stmt params) := by
  induction params with
  | nil => exact F.pure _
  | cons x xs ih =>
      refine F.seq (preserves_bindOne F hcalls hreleases stmt x) fun result => ?_
      cases result with
      | error err => exact F.pure _
      | ok u => exact ih

theorem follows_loop {stmt : Statement} (hrow : Preserves R (fetchRow env stmt)) {fuel : Nat}
    {acc : List (List OracleValue)} {result : Outcome (List (List OracleValue))} {w w' : World σ}
    (hrun : Runs (fetchRaw.loop env stmt fuel acc) w result w') : R w w' := by
  induction fuel generalizing acc w with
  | zero => cases hrun
  | succ fuel ih =>
      obtain ⟨row, w₁, hfetched, hrest⟩ := runs_bind.mp hrun
      have hfirst := hrow.of_runs hfetched
      cases row with
      | error err =>
          cases hrest
          exact hfirst
      | ok row =>
          cases row with
          | none =>
              cases hrest
              exact hfirst
          | some values => exact F.trans _ _ _ hfirst (ih hrest)

/-- A query keeps what its calls and the rows it fetches keep. -/
theorem follows_queryRaw (hprepare : calls .prepare) (hbind : calls .bind)
    (hexecute : calls .execute) (hvar : releases .var) (hstmt : releases .stmt)
    (hrow : ∀ stmt, Preserves R (fetchRow env stmt)) {conn : Connection} {sql : String}
    {params : List BindParameter} {fuel : Nat} {result : Outcome (List (List OracleValue))}
    {w w' : World σ} (hrun : Runs (queryRaw env fuel conn sql params) w result w') : R w w' := by
  obtain ⟨stmt, w₁, w₂, hprepared, haction, hrelease⟩ := runs_bracket.mp hrun
  have hfirst := (preserves_prepare F hprepare conn sql).of_runs hprepared
  cases stmt with
  | error err =>
      cases haction
      cases hrelease
      exact hfirst
  | ok stmt =>
      have hlast := (preserves_oracleReleaseStmt F hstmt stmt.ptr).of_runs hrelease
      refine F.trans _ _ _ hfirst (F.trans _ _ _ ?_ hlast)
      have hparams := preserves_bind F hbind hvar stmt params
      rcases runs_andThen.mp haction with ⟨err, hbound, -⟩ | ⟨_, w₃, hbound, haction⟩
      · exact hparams.of_runs hbound
      · refine F.trans _ _ _ (hparams.of_runs hbound) ?_
        have hstarted := preserves_execute F hexecute stmt
        rcases runs_andThen.mp haction with ⟨err, hexecuted, -⟩ | ⟨_, w₄, hexecuted, hloop⟩
        · exact hstarted.of_runs hexecuted
        · exact F.trans _ _ _ (hstarted.of_runs hexecuted) (follows_loop F (hrow stmt) hloop)

end Library

end IdrisOracle
