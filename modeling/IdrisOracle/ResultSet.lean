import IdrisOracle.Column
import IdrisOracle.RowScript
import IdrisOracle.Scan

/-! The rows of a cursor, and what a query makes of them when no call of the driver fails. -/

namespace IdrisOracle

open Effect

/-- A cell as the driver describes it and hands it over, with what its LOB functions deliver. -/
structure DriverCell where
  info : DpiQueryInfo
  native : DpiNativeTypeNum
  data : DpiData
  lobBytes : List UInt8

namespace DriverCell

def type (cell : DriverCell) : OracleType := fromOracleTypeNum cell.info.typeInfo.oracleTypeNum

/-- What the library makes of a cell of a type that is not NULL. -/
def content (cell : DriverCell) : OracleType → OracleValue
  | .oracleTypeVarchar | .oracleTypeChar | .oracleTypeNVarchar | .oracleTypeNChar =>
      .oracleString (CString.read (cell.data.value.asBytes.getD []))
  | .oracleTypeNumber => .oracleNumber cell.data.value.asDouble
  | .oracleTypeBinaryFloat => .oracleBinaryFloat cell.data.value.asFloat.toFloat
  | .oracleTypeBinaryDouble => .oracleBinaryDouble cell.data.value.asDouble
  | .oracleTypeDate => .oracleDate (.ofDpi cell.data.value.asTimestamp)
  | .oracleTypeTimestamp => .oracleTimestamp (.ofDpi cell.data.value.asTimestamp)
  | .oracleTypeTimestampTZ => .oracleTimestampTZ (.ofDpi cell.data.value.asTimestamp)
  | .oracleTypeIntervalYM =>
      .oracleIntervalYM ⟨cell.data.value.asIntervalYM.years, cell.data.value.asIntervalYM.months⟩
  | .oracleTypeIntervalDS =>
      .oracleIntervalDS ⟨cell.data.value.asIntervalDS.days, cell.data.value.asIntervalDS.hours,
        cell.data.value.asIntervalDS.minutes, cell.data.value.asIntervalDS.seconds,
        cell.data.value.asIntervalDS.fseconds⟩
  | .oracleTypeRaw => .oracleRaw (cell.data.value.asBytes.getD [])
  | .oracleTypeBlob => .oracleBlob (hexBytes cell.lobBytes)
  | .oracleTypeClob => .oracleClob (CString.read cell.lobBytes)
  | .oracleTypeBoolean => .oracleBool (cell.data.value.asBoolean = 1)
  | .oracleTypeUnknown _ => .oracleNull

/-- What the library makes of a cell. -/
def value (cell : DriverCell) : OracleValue :=
  if cell.data.isNull ≠ 0 then .oracleNull else cell.content cell.type

theorem value_of_null {cell : DriverCell} (h : cell.data.isNull ≠ 0) : cell.value = .oracleNull :=
  if_pos h

theorem value_of_not_null {cell : DriverCell} (h : cell.data.isNull = 0) :
    cell.value = cell.content cell.type :=
  if_neg (not_not.mpr h)

/-- The library supports the type and the cell has a value of it. -/
def Holds (cell : DriverCell) : OracleType → Prop
  | .oracleTypeVarchar | .oracleTypeChar | .oracleTypeNVarchar | .oracleTypeNChar =>
      cell.data.value.asBytes ≠ none
  | .oracleTypeRaw => (cell.data.value.asBytes.getD []).length ≤ 32767
  | .oracleTypeBlob => cell.data.value.asLOB ≠ none ∧ cell.lobBytes.length < 2 ^ 47
  | .oracleTypeClob => cell.data.value.asLOB ≠ none
  | .oracleTypeBoolean => cell.data.value.asBoolean = 0 ∨ cell.data.value.asBoolean = 1
  | .oracleTypeUnknown _ => False
  | _ => True

def Supported (cell : DriverCell) : Prop := cell.data.isNull ≠ 0 ∨ cell.Holds cell.type

/-- The size of the LOB of a cell, which is in characters unless it is a BLOB. -/
def lobSize (chars : List UInt8 → Nat) (cell : DriverCell) : OracleType → Nat
  | .oracleTypeBlob => cell.lobBytes.length
  | _ => chars cell.lobBytes

end DriverCell

variable {σ α β : Type} {env : Env σ}

/-- The cursor behind a statement: the rows to come and the row that was fetched last; `chars` is
how the database counts the characters of a text. -/
structure ResultSet (env : Env σ) where
  chars : List UInt8 → Nat
  rows : DpiStmt → σ → List (List DriverCell)
  current : DpiStmt → σ → List DriverCell
  fetched : ∀ stmt s found, (env.call (.stmtFetch stmt) s).1 = .ok found →
    (found = false ∧ rows stmt s = []) ∨
      found = true ∧ rows stmt s = current stmt (env.call (.stmtFetch stmt) s).2 ::
        rows stmt (env.call (.stmtFetch stmt) s).2
  counted : ∀ stmt s count, (env.call (.stmtGetNumQueryColumns stmt) s).1 = .ok count →
    count.toNat = (current stmt s).length
  described : ∀ stmt s pos info, (env.call (.stmtGetQueryInfo stmt pos) s).1 = .ok info →
    ∀ cell, (current stmt s)[pos.toNat - 1]? = some cell → info = cell.info
  valued : ∀ stmt s pos reply, (env.call (.stmtGetQueryValue stmt pos) s).1 = .ok reply →
    ∀ cell, (current stmt s)[pos.toNat - 1]? = some cell → reply = (cell.native, cell.data)
  sized : ∀ stmt s lob size, (env.call (.lobGetSize lob) s).1 = .ok size →
    ∀ cell ∈ current stmt s, cell.data.value.asLOB = some lob →
      size.toNat = cell.lobSize chars cell.type
  buffered : ∀ stmt s lob amount length,
    (env.call (.lobGetBufferSize lob amount) s).1 = .ok length →
    ∀ cell ∈ current stmt s, cell.data.value.asLOB = some lob →
      amount.toNat = cell.lobSize chars cell.type → cell.lobBytes.length ≤ length.toNat
  readLob : ∀ stmt s lob amount length bytes,
    (env.call (.lobReadBytes lob 1 amount length) s).1 = .ok bytes →
    ∀ cell ∈ current stmt s, cell.data.value.asLOB = some lob →
      amount.toNat = cell.lobSize chars cell.type → cell.lobBytes.length ≤ length.toNat →
      bytes = cell.lobBytes
  supported : ∀ stmt s, ∀ row ∈ rows stmt s, row.length < 2 ^ 31 ∧ ∀ cell ∈ row, cell.Supported
  called : ∀ stmt req s, req.group.OnRow →
    rows stmt (env.call req s).2 = rows stmt s ∧ current stmt (env.call req s).2 = current stmt s
  released : ∀ stmt lob s, rows stmt (env.release (.lob lob) s) = rows stmt s ∧
    current stmt (env.release (.lob lob) s) = current stmt s
  stored : ∀ stmt var data s, rows stmt (env.storeVar var data s) = rows stmt s ∧
    current stmt (env.storeVar var data s) = current stmt s
  allocated : ∀ stmt kind size s, rows stmt (env.malloc kind size s).2 = rows stmt s ∧
    current stmt (env.malloc kind size s).2 = current stmt s

section Clean

/-- Nothing fails from the first world to the second. -/
def NoFailure (w w' : World σ) : Prop :=
  ∃ delta, w'.log = w.log ++ delta ∧ ∀ event ∈ delta, ¬ event.Failed

theorem NoFailure.split {w w₁ w₂ : World σ} (h : NoFailure w w₂) (hfirst : Extends w w₁)
    (hrest : Extends w₁ w₂) : NoFailure w w₁ ∧ NoFailure w₁ w₂ := by
  obtain ⟨delta, hlog, hclean⟩ := h
  obtain ⟨⟨before, hbefore⟩, -⟩ := hfirst
  obtain ⟨⟨after, hafter⟩, -⟩ := hrest
  have hsplit : delta = before ++ after := by
    rw [hafter, hbefore, List.append_assoc] at hlog
    exact (List.append_cancel_left hlog).symm
  subst hsplit
  exact ⟨⟨before, hbefore, fun event hevent => hclean event (by simp [hevent])⟩,
    ⟨after, hafter, fun event hevent => hclean event (by simp [hevent])⟩⟩

/-- Nothing fails while every call succeeds and every allocation is granted. -/
theorem NoFailure.follows {calls : Req.Group → Prop}
    (hcall : ∀ req s, calls req.group → ∃ reply, (env.call req s).1 = .ok reply)
    (hmalloc : ∀ kind size s, (env.malloc kind size s).1 = true) :
    Follows env calls (fun _ => True) (NoFailure : World σ → World σ → Prop) where
  refl w := ⟨[], by simp, by simp⟩
  trans u v w huv hvw := by
    obtain ⟨first, hfirst, hclean₁⟩ := huv
    obtain ⟨second, hsecond, hclean₂⟩ := hvw
    refine ⟨first ++ second, by rw [hsecond, hfirst, List.append_assoc], fun event hevent => ?_⟩
    rcases List.mem_append.mp hevent with hmem | hmem
    · exact hclean₁ event hmem
    · exact hclean₂ event hmem
  called req w hreq := by
    obtain ⟨reply, hreply⟩ := hcall req w.odpi hreq
    exact ⟨[.call req (.ok reply)], by simp [hreply], by simp [Event.Failed]⟩
  released handle w _ := ⟨[.release handle], rfl, by simp [Event.Failed]⟩
  stored var data w := ⟨[], by simp, by simp⟩
  allocated kind size w := ⟨[.alloc kind w.nextBlock], rfl, by simp [Event.Failed]⟩
  refused kind size w hrefused := by
    rw [hmalloc kind size w.odpi] at hrefused
    cases hrefused
  freed block w := ⟨[.free block], rfl, by simp [Event.Failed]⟩
  read member w := ⟨[.read member], rfl, by simp [Event.Failed]⟩
  captured error w := ⟨[], by simp, by simp⟩
  ready w := ⟨[], by simp, by simp⟩

/-- A run in which nothing fails leads from where `P` holds to where `Q` holds. -/
structure Cleanly (P : World σ → Prop) (m : Eff (World σ) α) (Q : α → World σ → Prop) : Prop where
  grows : Grows m
  spec : ∀ w a w', P w → Runs m w a w' → NoFailure w w' → Q a w'

namespace Cleanly

variable {P P' : World σ → Prop} {Q : α → World σ → Prop} {R : β → World σ → Prop}

theorem pure {a : α} (h : ∀ w, P w → Q a w) : Cleanly P (Pure.pure a : Eff (World σ) α) Q := by
  refine ⟨grows_pure a, ?_⟩
  rintro w _ _ hw hrun -
  obtain ⟨rfl, rfl⟩ := runs_pure.mp hrun
  exact h _ hw

theorem bind {m : Eff (World σ) α} {f : α → Eff (World σ) β} (hm : Cleanly P m Q)
    (hf : ∀ a, Cleanly (Q a) (f a) R) : Cleanly P (m >>= f) R := by
  refine ⟨hm.grows.seq fun a => (hf a).grows, fun w b w' hw hrun hclean => ?_⟩
  obtain ⟨a, w₁, hfirst, hrest⟩ := runs_bind.mp hrun
  have hsplit := hclean.split (hm.grows.of_runs hfirst) ((hf a).grows.of_runs hrest)
  exact (hf a).spec _ _ _ (hm.spec _ _ _ hw hfirst hsplit.1) hrest hsplit.2

/-- A step whose first result is known; what follows other results only has to keep the log. -/
theorem bind_of {m : Eff (World σ) α} {f : α → Eff (World σ) β} {p : α → Prop}
    (hm : Cleanly P m fun a w => p a ∧ P' w) (hgrows : ∀ a, Grows (f a))
    (hf : ∀ a, p a → Cleanly P' (f a) R) : Cleanly P (m >>= f) R :=
  hm.bind fun a => ⟨hgrows a, fun w b w' hw hrun hclean =>
    (hf a hw.1).spec w b w' hw.2 hrun hclean⟩

end Cleanly

theorem NoFailure.reply {req : Req} {w : World σ} (h : NoFailure w (w.called env req)) :
    ∃ reply, (env.call req w.odpi).1 = .ok reply := by
  obtain ⟨delta, hlog, hclean⟩ := h
  have hdelta : delta = [.call req (env.call req w.odpi).1] :=
    (List.append_cancel_left hlog).symm
  cases hcall : (env.call req w.odpi).1 with
  | error failure =>
      have hmem : .call req (.error failure) ∈ delta := by simp [hdelta, hcall]
      exact absurd trivial (hclean _ hmem)
  | ok reply => exact ⟨reply, rfl⟩

theorem runs_malloc_of_noFailure {kind : BlockKind} {size : Nat} {block : Option Nat}
    {w w' : World σ} (hrun : Runs (malloc env kind size) w block w') (h : NoFailure w w') :
    block = some w.nextBlock ∧ w' = w.allocated env kind size := by
  rw [Runs, malloc_apply] at hrun
  cases hmalloc : (env.malloc kind size w.odpi).1 with
  | true =>
      simp only [hmalloc, if_true] at hrun
      cases hrun
      exact ⟨rfl, rfl⟩
  | false =>
      simp only [hmalloc, Bool.false_eq_true, if_false] at hrun
      cases hrun
      obtain ⟨delta, hlog, hclean⟩ := h
      have hdelta : delta = [.allocFailed kind] := (List.append_cancel_left hlog).symm
      exact absurd trivial (hclean (.allocFailed kind) (by simp [hdelta]))

end Clean

section Cells

variable (C : ResultSet env) (stmt : DpiStmt) (row : List DriverCell)
  (rest : List (List DriverCell))

/-- The row was fetched and these rows are to come. -/
def ResultSet.At (w : World σ) : Prop := C.current stmt w.odpi = row ∧ C.rows stmt w.odpi = rest

variable {C stmt row rest}

theorem cleanly_odpi {req : Req} (hreq : req.group.OnRow) :
    Cleanly (C.At stmt row rest) (odpi env req) fun r w =>
      (∃ reply, r = .ok reply ∧ ∃ s, C.current stmt s = row ∧ (env.call req s).1 = .ok reply) ∧
        C.At stmt row rest w := by
  refine ⟨preserves_odpi (follows_extends env) trivial, ?_⟩
  rintro w r w' ⟨hcurrent, hrows⟩ hrun hclean
  cases hrun
  obtain ⟨reply, hreply⟩ := hclean.reply
  obtain ⟨hrows', hcurrent'⟩ := C.called stmt req w.odpi hreq
  exact ⟨⟨reply, hreply, w.odpi, hcurrent, hreply⟩, hcurrent'.trans hcurrent, hrows'.trans hrows⟩

theorem cleanly_malloc (kind : BlockKind) (size : Nat) :
    Cleanly (C.At stmt row rest) (malloc env kind size) fun r w =>
      (∃ block, r = some block) ∧ C.At stmt row rest w := by
  refine ⟨preserves_malloc (follows_extends env) kind size, ?_⟩
  rintro w r w' ⟨hcurrent, hrows⟩ hrun hclean
  obtain ⟨rfl, rfl⟩ := runs_malloc_of_noFailure hrun hclean
  obtain ⟨hrows', hcurrent'⟩ := C.allocated stmt kind size w.odpi
  exact ⟨⟨_, rfl⟩, hcurrent'.trans hcurrent, hrows'.trans hrows⟩

theorem cleanly_free (block : Nat) :
    Cleanly (C.At stmt row rest) (free block) fun _ => C.At stmt row rest := by
  refine ⟨preserves_free (follows_extends env) block, ?_⟩
  rintro w _ w' hw hrun -
  cases hrun
  exact hw

theorem cleanly_readMember (member : Member) (a : α) :
    Cleanly (C.At stmt row rest) (readMember member a) fun b w =>
      b = a ∧ C.At stmt row rest w := by
  refine ⟨preserves_readMember (follows_extends env) member a, ?_⟩
  rintro w _ w' hw hrun -
  cases hrun
  exact ⟨rfl, hw⟩

theorem cleanly_lobRelease (lob : Option DpiLob) :
    Cleanly (C.At stmt row rest) (oracleLobRelease env lob) fun _ => C.At stmt row rest := by
  refine ⟨preserves_oracleLobRelease (follows_extends env) trivial lob, ?_⟩
  rintro w _ w' ⟨hcurrent, hrows⟩ hrun -
  cases lob with
  | none =>
      cases hrun
      exact ⟨hcurrent, hrows⟩
  | some lob =>
      cases hrun
      obtain ⟨hrows', hcurrent'⟩ := C.released stmt lob w.odpi
      exact ⟨hcurrent'.trans hcurrent, hrows'.trans hrows⟩

variable {Q : α → World σ → Prop}

/-- A call that succeeds; what follows only has to keep the log otherwise. -/
theorem Cleanly.call {req : Req} (hreq : req.group.OnRow)
    {k : Except DpiError req.Resp → Eff (World σ) α} (hgrows : ∀ r, Grows (k r))
    (hok : ∀ reply s, C.current stmt s = row → (env.call req s).1 = .ok reply →
      Cleanly (C.At stmt row rest) (k (.ok reply)) Q) :
    Cleanly (C.At stmt row rest) (odpi env req >>= k) Q := by
  refine (cleanly_odpi hreq).bind_of hgrows ?_
  rintro _ ⟨reply, rfl, s, hs, hcall⟩
  exact hok reply s hs hcall

theorem Cleanly.alloc {kind : BlockKind} {size : Nat} {k : Option Nat → Eff (World σ) α}
    (hnone : Grows (k none))
    (hsome : ∀ block, Cleanly (C.At stmt row rest) (k (some block)) Q) :
    Cleanly (C.At stmt row rest) (malloc env kind size >>= k) Q := by
  refine (cleanly_malloc kind size).bind_of (fun block => ?_) ?_
  · cases block with
    | none => exact hnone
    | some block => exact (hsome block).grows
  · rintro _ ⟨block, rfl⟩
    exact hsome block

theorem Cleanly.andThen {p : α → Prop} {m : Eff (World σ) (Outcome α)}
    {f : α → Eff (World σ) (Outcome β)} {R : Outcome β → World σ → Prop}
    (hm : Cleanly (C.At stmt row rest) m fun r w => (∃ a, r = .ok a ∧ p a) ∧ C.At stmt row rest w)
    (hgrows : ∀ a, Grows (f a)) (hf : ∀ a, p a → Cleanly (C.At stmt row rest) (f a) R) :
    Cleanly (C.At stmt row rest) (IdrisOracle.andThen m f) R := by
  refine hm.bind_of (fun r => ?_) ?_
  · cases r with
    | error err => exact grows_pure _
    | ok a => exact hgrows a
  · rintro _ ⟨a, rfl, ha⟩
    exact hf a ha

variable {ptr : OracleStmt} {column : Int32} {cell : DriverCell}

theorem cleanly_oracleQueryInfo (hcell : row[(position column).toNat - 1]? = some cell) :
    Cleanly (C.At ptr.stmt row rest) (oracleQueryInfo env ptr column) fun info w =>
      (∃ block, info = some (block, cell.info)) ∧ C.At ptr.stmt row rest w := by
  have F := follows_extends env
  refine Cleanly.alloc (grows_pure _) fun block => Cleanly.call (by exact trivial) (fun r => ?_) ?_
  · cases r with
    | error err => exact F.seq (preserves_free F _) fun _ => preserves_captured F _
    | ok info => exact grows_pure _
  · intro info s hs hcall
    have hinfo : info = cell.info := C.described _ _ _ _ hcall cell (hs ▸ hcell)
    exact Cleanly.pure fun w hw => ⟨⟨block, by rw [hinfo]⟩, hw⟩

theorem cleanly_getColumnInfo (hcell : row[(position column).toNat - 1]? = some cell) :
    Cleanly (C.At ptr.stmt row rest) (getColumnInfo env ptr column) fun r w =>
      (∃ info, r = .ok info ∧ info.oracletype = cell.type) ∧ C.At ptr.stmt row rest w := by
  have F := follows_extends env
  have hname : ∀ info : DpiQueryInfo, Cleanly (C.At ptr.stmt row rest)
      (oracleQueryInfoName env info) fun _ => C.At ptr.stmt row rest := fun info =>
    Cleanly.alloc (grows_pure _) fun block => Cleanly.pure fun w hw => hw
  refine (cleanly_oracleQueryInfo hcell).bind_of (fun info => ?_) ?_
  · exact F.seq (preserves_withQueryInfo_use F (preserves_columnInfo F) _) fun _ =>
      F.seq (preserves_oracleQueryInfoFree F _) fun _ => grows_pure _
  · rintro _ ⟨block, rfl⟩
    refine Cleanly.bind (Q := fun r w => (∃ info, r = .ok info ∧ info.oracletype = cell.type) ∧
      C.At ptr.stmt row rest w) ?_ fun r => ?_
    · refine Cleanly.bind (Q := fun info w => info.oracletype = cell.type ∧
        C.At ptr.stmt row rest w) ?_ fun info => ?_
      · exact (hname cell.info).bind fun name => Cleanly.pure fun w hw => ⟨rfl, hw⟩
      · exact Cleanly.pure fun w hw => ⟨⟨info, rfl, hw.1⟩, hw.2⟩
    · refine Cleanly.bind_of ⟨preserves_oracleQueryInfoFree F _, ?_⟩ (fun _ => grows_pure _)
        fun _ h => Cleanly.pure fun w hw => ⟨h, hw⟩
      rintro w _ w' ⟨hr, hw⟩ hrun -
      cases hrun
      exact ⟨hr, hw⟩

theorem cleanly_oracleColumnValue (hcell : row[(position column).toNat - 1]? = some cell) :
    Cleanly (C.At ptr.stmt row rest) (oracleColumnValue env ptr column) fun data w =>
      data = some cell.data ∧ C.At ptr.stmt row rest w := by
  refine Cleanly.call (by exact trivial) (fun r => ?_) ?_
  · cases r with
    | error err => exact preserves_captured (follows_extends env) _
    | ok reply => exact grows_pure _
  · intro reply s hs hcall
    obtain rfl : reply = (cell.native, cell.data) := C.valued _ _ _ _ hcall cell (hs ▸ hcell)
    exact Cleanly.pure fun w hw => ⟨rfl, hw⟩

section Values

/-- A member that is read, with what follows. -/
theorem Cleanly.read {member : Member} {a : β} {k : β → Eff (World σ) α}
    (hk : Cleanly (C.At stmt row rest) (k a) Q) :
    Cleanly (C.At stmt row rest) (readMember member a >>= k) Q := by
  have hvalue : (readMember member a >>= k) = readMember member a >>= fun _ => k a := rfl
  rw [hvalue]
  refine (cleanly_readMember member a).bind fun _ => ⟨hk.grows, ?_⟩
  rintro w b w' ⟨-, hw⟩ hrun hclean
  exact hk.spec w b w' hw hrun hclean

theorem Cleanly.bracket {ρ : Type} {p : ρ → Prop} {q : α → Prop} {acquire : Eff (World σ) ρ}
    {use : ρ → Eff (World σ) α} {release : ρ → Eff (World σ) Unit}
    (hacquire : Cleanly (C.At stmt row rest) acquire fun r w => p r ∧ C.At stmt row rest w)
    (hgrows : ∀ r, Grows (use r))
    (huse : ∀ r, p r → Cleanly (C.At stmt row rest) (use r) fun a w =>
      q a ∧ C.At stmt row rest w)
    (hrelease : ∀ r, Cleanly (C.At stmt row rest) (release r) fun _ => C.At stmt row rest) :
    Cleanly (C.At stmt row rest) (Effect.bracket acquire use release) fun a w =>
      q a ∧ C.At stmt row rest w := by
  have hafter : ∀ (r : ρ) (a : α), Grows (release r >>= fun _ => Pure.pure a) := fun r a =>
    (hrelease r).grows.seq fun _ => grows_pure a
  refine hacquire.bind_of (fun r => (hgrows r).seq fun a => hafter r a) fun r hr => ?_
  refine (huse r hr).bind_of (fun a => hafter r a) fun a ha => ?_
  exact (hrelease r).bind fun _ => Cleanly.pure fun w hw => ⟨ha, hw⟩

theorem cleanly_oracleDataString {data : DpiData} {bytes : List UInt8}
    (h : data.value.asBytes = some bytes) :
    Cleanly (C.At stmt row rest) (oracleDataString env data) fun text w =>
      fromC env text = CString.read bytes ∧ C.At stmt row rest w := by
  refine Cleanly.read ?_
  rw [h]
  exact Cleanly.alloc (grows_pure _) fun block => Cleanly.pure fun w hw => ⟨rfl, hw⟩

theorem cleanly_oracleDataBytesHex {data : DpiData}
    (h : (data.value.asBytes.getD []).length ≤ 32767) :
    Cleanly (C.At stmt row rest) (oracleDataBytesHex env data) fun hex w =>
      fromC env hex = hexEncode (data.value.asBytes.getD []) ∧ C.At stmt row rest w := by
  refine Cleanly.read (Cleanly.alloc (grows_pure _) fun block => ?_)
  exact Cleanly.pure fun w hw => ⟨read_hexBlock _ _ (by omega), hw⟩

theorem cleanly_oracleLobSize {lob : DpiLob} {n : Nat}
    (h : ∀ s size, C.current stmt s = row → (env.call (.lobGetSize lob) s).1 = .ok size →
      size.toNat = n) :
    Cleanly (C.At stmt row rest) (oracleLobSize env (some lob)) fun size w =>
      size = (UInt64.ofNat n).toInt64 ∧ C.At stmt row rest w := by
  refine Cleanly.call (by exact trivial) (fun r => ?_) fun size s hs hcall => ?_
  · cases r with
    | error err => exact preserves_captured (follows_extends env) _
    | ok size => exact grows_pure _
  · rw [← h s size hs hcall, UInt64.ofNat_toNat]
    exact Cleanly.pure fun w hw => ⟨rfl, hw⟩

theorem cleanly_oracleLobRead {lob : DpiLob} {length : Int64} {bytes : List UInt8}
    (hwidth : bytes.length * 2 ≤ 2 ^ 64)
    (h : ∀ s reply, C.current stmt s = row →
      (env.call (.lobReadBytes lob 1 length.toUInt64 length.toUInt64) s).1 = .ok reply →
      reply = bytes) :
    Cleanly (C.At stmt row rest) (oracleLobRead env (some lob) 1 length) fun hex w =>
      fromC env hex = hexEncode bytes ∧ C.At stmt row rest w := by
  have F := follows_extends env
  have hfree : ∀ (block : Nat) (text : CharPtr), Grows (do
      free block
      return text : Eff (World σ) CharPtr) := fun block text =>
    F.seq (preserves_free F block) fun _ => grows_pure _
  refine Cleanly.alloc (grows_pure _) fun buffer =>
    Cleanly.call (by exact trivial) (fun r => ?_) fun reply s hs hcall => ?_
  · cases r with
    | error err => exact F.seq (preserves_oracleCaptureLastError F) fun _ => hfree _ _
    | ok reply =>
        refine F.seq (preserves_malloc F _ _) fun hex => ?_
        cases hex with
        | none => exact hfree _ _
        | some hex => exact hfree _ _
  · obtain rfl := h s reply hs hcall
    refine Cleanly.alloc (hfree _ _) fun hex => (cleanly_free buffer).bind fun _ => ?_
    exact Cleanly.pure fun w hw => ⟨read_hexBlock _ _ hwidth, hw⟩

/-- The end of `oracleClobRead`, from the buffer on. -/
def oracleClobRead.fill (env : Env σ) (lob : DpiLob) (chars bytes : UInt64) :
    Eff (World σ) CharPtr := do
  match ← malloc env .clobBuffer (bytes + 1).toNat with
  | none => return none
  | some buffer =>
      match ← odpi env (.lobReadBytes lob 1 chars bytes) with
      | .error _ =>
          oracleCaptureLastError
          free buffer
          return none
      | .ok text => return some (buffer, text)

theorem cleanly_fill {lob : DpiLob} {chars size : UInt64} {bytes : List UInt8}
    (h : ∀ s reply, C.current stmt s = row →
      (env.call (.lobReadBytes lob 1 chars size) s).1 = .ok reply → reply = bytes) :
    Cleanly (C.At stmt row rest) (oracleClobRead.fill env lob chars size) fun text w =>
      fromC env text = CString.read bytes ∧ C.At stmt row rest w := by
  have F := follows_extends env
  refine Cleanly.alloc (grows_pure _) fun buffer =>
    Cleanly.call (by exact trivial) (fun r => ?_) fun reply s hs hcall => ?_
  · cases r with
    | error err =>
        exact F.seq (preserves_oracleCaptureLastError F) fun _ =>
          F.seq (preserves_free F _) fun _ => grows_pure _
    | ok text => exact grows_pure _
  · obtain rfl := h s reply hs hcall
    exact Cleanly.pure fun w hw => ⟨rfl, hw⟩

theorem grows_fill (env : Env σ) (lob : DpiLob) (chars size : UInt64) :
    Grows (oracleClobRead.fill env lob chars size) := by
  have F := follows_extends env
  refine F.seq (preserves_malloc F _ _) fun buffer => ?_
  cases buffer with
  | none => exact grows_pure _
  | some buffer =>
      refine F.seq (preserves_odpi F trivial) fun r => ?_
      cases r with
      | error err =>
          exact F.seq (preserves_oracleCaptureLastError F) fun _ =>
            F.seq (preserves_free F _) fun _ => grows_pure _
      | ok text => exact grows_pure _

/-- A CLOB is read whole: its size in characters gives the buffer, and both give the bytes. -/
theorem cleanly_oracleClobRead {lob : DpiLob} {bytes : List UInt8} {n : Nat}
    (hsize : ∀ s chars, C.current stmt s = row → (env.call (.lobGetSize lob) s).1 = .ok chars →
      chars.toNat = n)
    (hbuffer : ∀ s chars size, C.current stmt s = row →
      (env.call (.lobGetBufferSize lob chars) s).1 = .ok size → chars.toNat = n →
      bytes.length ≤ size.toNat)
    (hread : ∀ s chars size reply, C.current stmt s = row →
      (env.call (.lobReadBytes lob 1 chars size) s).1 = .ok reply → chars.toNat = n →
      bytes.length ≤ size.toNat → reply = bytes) :
    Cleanly (C.At stmt row rest) (oracleClobRead env (some lob)) fun text w =>
      fromC env text = CString.read bytes ∧ C.At stmt row rest w := by
  have F := follows_extends env
  refine Cleanly.call (by exact trivial) (fun r => ?_) fun chars s hs hchars => ?_
  · cases r with
    | error err => exact preserves_captured F _
    | ok chars =>
        refine F.seq (preserves_odpi F trivial) fun r => ?_
        cases r with
        | error err => exact preserves_captured F _
        | ok size => exact grows_fill env lob chars size
  · have hn := hsize s chars hs hchars
    refine Cleanly.call (by exact trivial) (fun r => ?_) fun size s' hs' hbytes => ?_
    · cases r with
      | error err => exact preserves_captured F _
      | ok size => exact grows_fill env lob chars size
    · have hlength := hbuffer s' chars size hs' hbytes hn
      exact cleanly_fill fun s reply hs hcall => hread s chars size reply hs hcall hn hlength

theorem cleanly_release (ptr : DecodePtr) (ty : OracleType) :
    Cleanly (C.At stmt row rest) (decodeColumn.release env ptr ty) fun _ =>
      C.At stmt row rest := by
  cases ty <;> cases ptr <;> first
    | exact Cleanly.pure fun _ hw => hw
    | exact cleanly_lobRelease _

theorem cleanly_raw (h : cell.Holds .oracleTypeRaw) :
    Cleanly (C.At stmt row rest) (decodeColumn.value env cell.data .oracleTypeRaw) fun r w =>
      r = .ok (cell.content .oracleTypeRaw) ∧ C.At stmt row rest w := by
  refine Cleanly.bracket (p := fun ptr => ptr = .data cell.data)
    (Cleanly.pure fun w hw => ⟨rfl, hw⟩)
    (fun ptr => preserves_use (follows_extends env) trivial ptr _) ?_
    fun ptr => cleanly_release ptr _
  rintro _ rfl
  refine (cleanly_oracleDataBytesHex h).bind_of (fun hex => ?_) fun hex hhex => ?_
  · split <;> exact grows_pure _
  · simp only [hhex, hexDecode_hexEncode]
    exact Cleanly.pure fun w hw => ⟨rfl, hw⟩

theorem cleanly_blob (hmem : cell ∈ row) (hty : cell.type = .oracleTypeBlob)
    (h : cell.Holds .oracleTypeBlob) :
    Cleanly (C.At stmt row rest) (decodeColumn.value env cell.data .oracleTypeBlob) fun r w =>
      r = .ok (cell.content .oracleTypeBlob) ∧ C.At stmt row rest w := by
  have F := follows_extends env
  obtain ⟨hhandle, hlength⟩ := h
  obtain ⟨lob, hlob⟩ := Option.ne_none_iff_exists'.mp hhandle
  have hsize : ∀ s size, C.current stmt s = row →
      (env.call (.lobGetSize lob) s).1 = .ok size → size.toNat = cell.lobBytes.length := by
    intro s size hs hcall
    rw [C.sized stmt s lob size hcall cell (hs ▸ hmem) hlob, hty]
    rfl
  have hamount : (UInt64.ofNat cell.lobBytes.length).toInt64.toUInt64.toNat =
      cell.lobBytes.length := by
    simp
    omega
  have hread : ∀ s reply, C.current stmt s = row →
      (env.call (.lobReadBytes lob 1 (UInt64.ofNat cell.lobBytes.length).toInt64.toUInt64
        (UInt64.ofNat cell.lobBytes.length).toInt64.toUInt64) s).1 = .ok reply →
      reply = cell.lobBytes := by
    intro s reply hs hcall
    refine C.readLob stmt s lob _ _ reply hcall cell (hs ▸ hmem) hlob ?_ hamount.ge
    rw [hty, hamount]
    rfl
  refine Cleanly.bracket (p := fun ptr => ptr = .lob (some lob))
    (Cleanly.read (Cleanly.pure fun w hw => ⟨by rw [hlob], hw⟩))
    (fun ptr => preserves_use F trivial ptr _) ?_ fun ptr => cleanly_release ptr _
  rintro _ rfl
  refine (cleanly_oracleLobSize hsize).bind_of (fun size => ?_) ?_
  · split
    · exact F.seq (preserves_getLastError F) fun _ => grows_pure _
    · exact F.seq (preserves_oracleLobRead F trivial _ _ _) fun _ => grows_pure _
  · rintro _ rfl
    rw [if_neg (size_nonneg hlength)]
    refine (cleanly_oracleLobRead (by omega) hread).bind_of (fun _ => grows_pure _) ?_
    intro hex hhex
    rw [hhex, encode_hexEncode]
    exact Cleanly.pure fun w hw => ⟨rfl, hw⟩

theorem cleanly_clob (hmem : cell ∈ row) (h : cell.Holds .oracleTypeClob) :
    Cleanly (C.At stmt row rest) (decodeColumn.value env cell.data .oracleTypeClob) fun r w =>
      r = .ok (cell.content .oracleTypeClob) ∧ C.At stmt row rest w := by
  obtain ⟨lob, hlob⟩ := Option.ne_none_iff_exists'.mp h
  have hsize : ∀ s chars, C.current stmt s = row →
      (env.call (.lobGetSize lob) s).1 = .ok chars →
      chars.toNat = cell.lobSize C.chars cell.type := fun s chars hs hcall =>
    C.sized stmt s lob chars hcall cell (hs ▸ hmem) hlob
  have hread : Cleanly (C.At stmt row rest) (oracleClobRead env (some lob)) fun text w =>
      fromC env text = CString.read cell.lobBytes ∧ C.At stmt row rest w := by
    refine cleanly_oracleClobRead hsize (fun s chars size hs hcall => ?_)
      fun s chars size reply hs hcall => ?_
    · exact C.buffered stmt s lob chars size hcall cell (hs ▸ hmem) hlob
    · exact C.readLob stmt s lob chars size reply hcall cell (hs ▸ hmem) hlob
  refine Cleanly.bracket (p := fun ptr => ptr = .lob (some lob))
    (Cleanly.read (Cleanly.pure fun w hw => ⟨by rw [hlob], hw⟩))
    (fun ptr => preserves_use (follows_extends env) trivial ptr _) ?_
    fun ptr => cleanly_release ptr _
  rintro _ rfl
  refine hread.bind_of (fun _ => grows_pure _) fun text htext => ?_
  rw [htext]
  exact Cleanly.pure fun w hw => ⟨rfl, hw⟩

/-- A value that is not NULL is decoded to its content. -/
theorem cleanly_value (hmem : cell ∈ row) {ty : OracleType} (hty : cell.type = ty)
    (h : cell.Holds ty) :
    Cleanly (C.At stmt row rest) (decodeColumn.value env cell.data ty) fun r w =>
      r = .ok (cell.content ty) ∧ C.At stmt row rest w := by
  cases ty with
  | oracleTypeVarchar | oracleTypeChar | oracleTypeNVarchar | oracleTypeNChar =>
      obtain ⟨bytes, hbytes⟩ := Option.ne_none_iff_exists'.mp h
      refine (cleanly_oracleDataString hbytes).bind_of (fun _ => grows_pure _) fun text htext => ?_
      exact Cleanly.pure fun w hw => ⟨by simp [htext, DriverCell.content, hbytes], hw⟩
  | oracleTypeNumber | oracleTypeBinaryFloat | oracleTypeBinaryDouble | oracleTypeDate
  | oracleTypeTimestamp | oracleTypeTimestampTZ | oracleTypeIntervalYM | oracleTypeIntervalDS =>
      exact Cleanly.read (Cleanly.pure fun w hw => ⟨rfl, hw⟩)
  | oracleTypeRaw => exact cleanly_raw h
  | oracleTypeBlob => exact cleanly_blob hmem hty h
  | oracleTypeClob => exact cleanly_clob hmem h
  | oracleTypeBoolean =>
      rcases h with hfalse | htrue
      · exact Cleanly.read (by
          rw [hfalse]
          exact Cleanly.pure fun w hw => ⟨by simp [DriverCell.content, hfalse], hw⟩)
      · exact Cleanly.read (by
          rw [htrue]
          exact Cleanly.pure fun w hw => ⟨by simp [DriverCell.content, htrue], hw⟩)
  | oracleTypeUnknown n => exact h.elim

/-- A supported cell is decoded to its value. -/
theorem cleanly_decodeColumn (hcell : row[(position column).toNat - 1]? = some cell)
    (h : cell.Supported) :
    Cleanly (C.At ptr.stmt row rest) (decodeColumn env ptr column) fun r w =>
      r = .ok cell.value ∧ C.At ptr.stmt row rest w := by
  have F := follows_extends env
  rw [decodeColumn_eq]
  refine (cleanly_getColumnInfo hcell).andThen (fun info => grows_cell _ _ _) fun info hty => ?_
  refine (cleanly_oracleColumnValue hcell).bind_of (fun data => ?_) ?_
  · cases data with
    | none => exact F.seq (preserves_getLastError F) fun _ => grows_pure _
    | some data =>
        dsimp only
        split
        · exact grows_pure _
        · exact grows_value _ _
  · rintro _ rfl
    dsimp only
    by_cases hnull : oracleDataIsNull cell.data = 0
    · rw [if_neg (not_not.mpr hnull), hty, DriverCell.value_of_not_null hnull]
      rcases h with hnotnull | hholds
      · exact absurd hnull hnotnull
      · exact cleanly_value (List.mem_of_getElem? hcell) rfl hholds
    · rw [if_pos hnull]
      exact Cleanly.pure fun w hw => ⟨by rw [DriverCell.value_of_null hnull], hw⟩

end Values

end Cells

end IdrisOracle
