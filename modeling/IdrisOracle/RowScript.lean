import IdrisOracle.Log

/-! Which failures while a row is fetched reach the caller. -/

namespace IdrisOracle

open Effect

/-- What happens when a column is decoded: how each call and each allocation ends. -/
structure ColumnScript where
  blocks : BlockKind → Bool
  info : Except DpiError DpiQueryInfo
  value : Except DpiError (DpiNativeTypeNum × DpiData)
  lobSize : Except DpiError UInt64
  lobBufferSize : Except DpiError UInt64
  lobBytes : Except DpiError (List UInt8)

/-- What happens when a row is fetched; the columns are counted from one. -/
structure RowScript where
  fetch : Except DpiError Bool
  countFailure : Option DpiError
  columns : UInt32
  column : Nat → ColumnScript
  nullString : String

/-- The call or the allocation failed. -/
def Event.Failed : Event → Prop
  | .call _ (.error _) | .allocFailed _ => True
  | _ => False

instance : DecidablePred Event.Failed
  | .call _ (.error _) | .allocFailed _ => isTrue trivial
  | .call _ (.ok _) | .release _ | .alloc _ _ | .free _ | .read _ => isFalse id

/-- A failure among the events makes the result an error, and a row has all its columns. -/
def Surfaces (columns : UInt32) (delta : List Event)
    (result : Outcome (Option (List OracleValue))) : Prop :=
  ((∃ event ∈ delta, event.Failed) → ∃ err, result = .error err) ∧
    ∀ row, result = .ok (some row) → row.length = columns.toNat

def IsError {α : Type} (r : Except DpiError α) : Prop := ∃ failure, r = .error failure

namespace ColumnScript

variable (c : ColumnScript) (nullString : String)

/-- The text the library gets for the bytes of a RAW. -/
def rawText (data : DpiData) : String :=
  if c.blocks .bytesHex then CString.read (hexBlock (2 ^ 32) (data.value.asBytes.getD []))
  else nullString

/-- The library makes an error of the value. -/
def RejectedValue (data : DpiData) : OracleType → Prop
  | .oracleTypeRaw => hexDecode (c.rawText nullString data) = none
  | .oracleTypeClob => data.value.asLOB = none
  | .oracleTypeBlob => data.value.asLOB = none ∨ IsError c.lobSize ∨
      ∃ size, c.lobSize = .ok size ∧ size.toInt64 < 0
  | .oracleTypeBoolean => data.value.asBoolean ≠ 0 ∧ data.value.asBoolean ≠ 1
  | .oracleTypeUnknown _ => True
  | _ => False

/-- A failure in decoding the value that the library does not test for. -/
def OverlookedValue (data : DpiData) : OracleType → Prop
  | .oracleTypeVarchar | .oracleTypeChar | .oracleTypeNVarchar | .oracleTypeNChar =>
      data.value.asBytes ≠ none ∧ c.blocks .string = false
  | .oracleTypeRaw => c.blocks .bytesHex = false
  | .oracleTypeClob => IsError c.lobSize ∨ IsError c.lobBufferSize ∨
      c.blocks .clobBuffer = false ∨ IsError c.lobBytes
  | .oracleTypeBlob => c.blocks .lobBuffer = false ∨ IsError c.lobBytes ∨ c.blocks .lobHex = false
  | _ => False

/-- ODPI-C hands over a value that is not NULL, and decoding it as the type has the property. -/
def OnCell (p : DpiData → OracleType → Prop) (ty : OracleType) : Prop :=
  ∃ native data, c.value = .ok (native, data) ∧ data.isNull = 0 ∧ p data ty

def OnValue (p : DpiData → OracleType → Prop) : Prop :=
  ∃ info, c.info = .ok info ∧ c.OnCell p (fromOracleTypeNum info.typeInfo.oracleTypeNum)

/-- The library makes an error of the column. -/
def Rejected : Prop :=
  c.blocks .queryInfo = false ∨ IsError c.info ∨ IsError c.value ∨
    c.OnValue (c.RejectedValue nullString)

/-- A failure in decoding the column that the library does not test for. -/
def Overlooked : Prop := c.blocks .infoName = false ∨ c.OnValue c.OverlookedValue

end ColumnScript

namespace RowScript

variable (s : RowScript)

def reply (pos : Nat) : (req : Req) → Except DpiError req.Resp
  | .contextCreate => .ok ()
  | .connCreate .. => .ok ⟨0⟩
  | .connCommit _ => .ok ()
  | .connRollback _ => .ok ()
  | .connPrepareStmt .. => .ok ⟨0⟩
  | .connNewVar .. => .ok ⟨0⟩
  | .stmtBindByName .. => .ok ()
  | .stmtBindValueByName .. => .ok ()
  | .stmtExecute _ => .ok ()
  | .stmtFetch _ => s.fetch
  | .stmtGetNumQueryColumns _ =>
      match s.countFailure with
      | some failure => .error failure
      | none => .ok s.columns
  | .stmtGetQueryInfo _ pos => (s.column pos.toNat).info
  | .stmtGetQueryValue _ pos => (s.column pos.toNat).value
  | .lobGetSize _ => (s.column pos).lobSize
  | .lobGetBufferSize .. => (s.column pos).lobBufferSize
  | .lobReadBytes .. => (s.column pos).lobBytes

/-- The column at work after an allocation: decoding begins with that of the query info. -/
def atWork (kind : BlockKind) (pos : Nat) : Nat :=
  match kind with
  | .queryInfo => pos + 1
  | _ => pos

/-- The script as an environment, whose state is the column at work. -/
def env : Env Nat where
  call req pos := (s.reply pos req, pos)
  release _ pos := pos
  storeVar _ _ pos := pos
  malloc kind _ pos := ((s.column (atWork kind pos)).blocks kind, atWork kind pos)
  nullString := s.nullString

/-- A column after `pos` has the property. -/
def After (p : ColumnScript → Prop) (pos : Nat) : Prop :=
  ∃ next, pos < next ∧ next ≤ s.columns.toNat ∧ p (s.column next)

/-- The failures of the row all reach the caller. -/
def Surfaced : Prop :=
  s.fetch = .ok true → s.countFailure = none ∧ s.columns.toNat < 2 ^ 31 ∧
    (s.After (·.Overlooked) 0 → s.After (·.Rejected s.nullString) 0)

/-- The column at work is `pos`, and some event since `log` failed if and only if `failed`. -/
def At (log : List Event) (pos : Nat) (failed : Prop) (w : World Nat) : Prop :=
  w.odpi = pos ∧ ∃ delta, w.log = log ++ delta ∧ ((∃ event ∈ delta, event.Failed) ↔ failed)

variable {s} {log : List Event} {pos : Nat} {failed failed' : Prop}

theorem At.congr {w : World Nat} (h : At log pos failed w) (hiff : failed ↔ failed') :
    At log pos failed' w := by
  obtain ⟨hpos, delta, hlog, hfailed⟩ := h
  exact ⟨hpos, delta, hlog, hfailed.trans hiff⟩

/-- A step that is recorded as one event. -/
theorem At.record {w w' : World Nat} {event : Event} {pos' : Nat}
    (h : At log pos failed w) (hlog : w'.log = w.log ++ [event]) (hpos : w'.odpi = pos') :
    At log pos' (failed ∨ event.Failed) w' := by
  obtain ⟨-, delta, hdelta, hfailed⟩ := h
  refine ⟨hpos, delta ++ [event], by simp [hlog, hdelta], ?_⟩
  simp [← hfailed, or_and_right, exists_or]

variable (s)

theorem ensures_odpi (req : Req) (r : Except DpiError req.Resp) (hr : s.reply pos req = r) :
    Ensures (At log pos failed) (odpi s.env req) fun r' w =>
      r' = r ∧ At log pos (failed ∨ IsError r) w := by
  intro w hw
  have hcall : s.env.call req w.odpi = (r, pos) := by
    rw [← hr, ← hw.1]
    rfl
  have hpos : (w.called s.env req).odpi = pos := by rw [World.called_odpi, hcall]
  have hat := hw.record (World.called_log s.env w req) hpos
  refine ⟨_, _, rfl, by rw [hcall], hat.congr ?_⟩
  rw [hcall]
  cases r <;> simp [Event.Failed, IsError]

theorem ensures_malloc {kind : BlockKind} (next : Nat) (hnext : atWork kind pos = next)
    (size : Nat) :
    Ensures (At log pos failed) (malloc s.env kind size) fun b w =>
      b.isSome = (s.column next).blocks kind ∧
        At log next (failed ∨ (s.column next).blocks kind = false) w := by
  intro w hw
  have hmalloc : s.env.malloc kind size w.odpi = ((s.column next).blocks kind, next) := by
    rw [← hnext, ← hw.1]
    rfl
  have hpos : (s.env.malloc kind size w.odpi).2 = next := by rw [hmalloc]
  cases hblock : (s.column next).blocks kind with
  | true =>
      refine ⟨some w.nextBlock, w.allocated s.env kind size, by simp [Runs, hmalloc, hblock],
        rfl, ?_⟩
      have hat := hw.record (World.allocated_log s.env w kind size) hpos
      exact hat.congr (by simp [Event.Failed])
  | false =>
      refine ⟨none, w.refused s.env kind size, by simp [Runs, hmalloc, hblock], rfl, ?_⟩
      have hat := hw.record (World.refused_log s.env w kind size) hpos
      exact hat.congr (by simp [Event.Failed])

theorem ensures_free (block : Nat) :
    Ensures (At log pos failed) (free block) fun _ w => At log pos failed w :=
  fun _ hw => ⟨_, _, rfl, (hw.record (World.record_log _ _) hw.1).congr (by simp [Event.Failed])⟩

theorem ensures_readMember {α : Type} (member : Member) (a : α) :
    Ensures (At log pos failed) (readMember member a) fun b w => b = a ∧ At log pos failed w :=
  fun _ hw =>
    ⟨_, _, rfl, rfl, (hw.record (World.record_log _ _) hw.1).congr (by simp [Event.Failed])⟩

theorem ensures_oracleCaptureLastError :
    Ensures (At log pos failed) oracleCaptureLastError fun _ w => At log pos failed w :=
  fun w hw => ⟨_, _, oracleCaptureLastError_apply w, by simpa [At] using hw⟩

theorem ensures_odpiRelease (handle : Handle) :
    Ensures (At log pos failed) (odpiRelease s.env handle) fun _ w => At log pos failed w := by
  intro w hw
  have hat := hw.record (World.released_log s.env w handle) hw.1
  exact ⟨_, _, rfl, hat.congr (by simp [Event.Failed])⟩

theorem ensures_oracleDataString (data : DpiData) :
    Ensures (At log pos failed) (oracleDataString s.env data) fun _ w =>
      At log pos
        (failed ∨ data.value.asBytes ≠ none ∧ (s.column pos).blocks .string = false) w := by
  refine (ensures_readMember _ _).bind_of ?_
  rintro _ rfl
  cases hbytes : data.value.asBytes with
  | none => exact Ensures.pure fun w hw => hw.congr (by simp)
  | some bytes =>
      refine (ensures_malloc s pos rfl _).bind fun block => ?_
      cases block <;> exact Ensures.pure fun w hw => hw.2.congr (by simp)

theorem ensures_oracleDataBytesHex (data : DpiData) :
    Ensures (At log pos failed) (oracleDataBytesHex s.env data) fun hex w =>
      fromC s.env hex = (s.column pos).rawText s.nullString data ∧
        At log pos (failed ∨ (s.column pos).blocks .bytesHex = false) w := by
  refine (ensures_readMember _ _).bind_of ?_
  rintro _ rfl
  refine (ensures_malloc s pos rfl _).bind fun block => ?_
  cases block <;> refine Ensures.pure fun w ⟨hblock, hw⟩ => ⟨?_, hw⟩
  · simp [ColumnScript.rawText, fromC, env, ← hblock]
  · simp [ColumnScript.rawText, fromC, ← hblock]

theorem ensures_oracleLobSize (lob : DpiLob) :
    Ensures (At log pos failed) (oracleLobSize s.env (some lob)) fun n w =>
      (IsError (s.column pos).lobSize ∧ n < 0) ∨
        ∃ size, (s.column pos).lobSize = .ok size ∧ n = size.toInt64 ∧ At log pos failed w := by
  refine (ensures_odpi s (.lobGetSize lob) (s.column pos).lobSize rfl).bind_of ?_
  rintro _ rfl
  cases hsize : (s.column pos).lobSize with
  | error failure =>
      refine (ensures_oracleCaptureLastError).bind fun _ => ?_
      exact Ensures.pure fun w _ => .inl ⟨⟨failure, rfl⟩, by decide⟩
  | ok size =>
      refine Ensures.pure fun w hw => .inr ⟨size, rfl, rfl, hw.congr ?_⟩
      simp [IsError]

theorem ensures_oracleLobRead (lob : DpiLob) (offset length : Int64) :
    Ensures (At log pos failed) (oracleLobRead s.env (some lob) offset length) fun _ w =>
      At log pos (failed ∨ (s.column pos).blocks .lobBuffer = false ∨
        IsError (s.column pos).lobBytes ∨ (s.column pos).blocks .lobHex = false) w := by
  refine (ensures_malloc s pos rfl _).bind_of fun buffer hbuffer => ?_
  cases buffer with
  | none => exact Ensures.pure fun w hw => hw.congr (by simp [← hbuffer])
  | some buffer =>
      let req := Req.lobReadBytes lob offset.toUInt64 length.toUInt64 length.toUInt64
      refine (ensures_odpi s req (s.column pos).lobBytes rfl).bind_of ?_
      rintro _ rfl
      cases hbytes : (s.column pos).lobBytes with
      | error failure =>
          refine (ensures_oracleCaptureLastError).bind fun _ => (ensures_free _).bind fun _ => ?_
          exact Ensures.pure fun w hw => hw.congr (by simp [← hbuffer, IsError])
      | ok bytes =>
          refine (ensures_malloc s pos rfl _).bind_of fun hex hhex => ?_
          cases hex <;> refine (ensures_free _).bind fun _ => Ensures.pure fun w hw => ?_
          · exact hw.congr (by simp [← hbuffer, ← hhex, IsError])
          · exact hw.congr (by simp [← hbuffer, ← hhex, IsError])

theorem ensures_oracleClobRead (lob : DpiLob) :
    Ensures (At log pos failed) (oracleClobRead s.env (some lob)) fun _ w =>
      At log pos (failed ∨ IsError (s.column pos).lobSize ∨ IsError (s.column pos).lobBufferSize ∨
        (s.column pos).blocks .clobBuffer = false ∨ IsError (s.column pos).lobBytes) w := by
  have hcaptured : ∀ {failed failed' : Prop}, (failed ↔ failed') →
      Ensures (At log pos failed) (do
        oracleCaptureLastError
        return (none : CharPtr)) fun _ w => At log pos failed' w := fun hiff =>
    (ensures_oracleCaptureLastError).bind fun _ => Ensures.pure fun w hw => hw.congr hiff
  refine (ensures_odpi s (.lobGetSize lob) (s.column pos).lobSize rfl).bind_of ?_
  rintro _ rfl
  cases (s.column pos).lobSize with
  | error failure => exact hcaptured (by simp [IsError])
  | ok chars =>
      refine (ensures_odpi s (.lobGetBufferSize lob chars) (s.column pos).lobBufferSize
        rfl).bind_of ?_
      rintro _ rfl
      cases (s.column pos).lobBufferSize with
      | error failure => exact hcaptured (by simp [IsError])
      | ok bytes =>
          refine (ensures_malloc s pos rfl _).bind_of fun buffer hbuffer => ?_
          cases buffer with
          | none => exact Ensures.pure fun w hw => hw.congr (by simp [← hbuffer])
          | some buffer =>
              let req := Req.lobReadBytes lob 1 chars bytes
              refine (ensures_odpi s req (s.column pos).lobBytes rfl).bind_of ?_
              rintro _ rfl
              cases (s.column pos).lobBytes with
              | error failure =>
                  refine (ensures_oracleCaptureLastError).bind fun _ =>
                    (ensures_free _).bind fun _ => ?_
                  exact Ensures.pure fun w hw => hw.congr (by simp [← hbuffer, IsError])
              | ok text => exact Ensures.pure fun w hw => hw.congr (by simp [← hbuffer, IsError])

/-- The result is an error, or a failure has happened if and only if one was overlooked. -/
def Decides {α : Type} (log : List Event) (pos : Nat) (failed rejected overlooked : Prop)
    (r : Outcome α) (w : World Nat) : Prop :=
  (rejected ∧ ∃ err, r = .error err) ∨
    (¬ rejected ∧ (∃ a, r = .ok a) ∧ At log pos (failed ∨ overlooked) w)

theorem Decides.rejected {α : Type} {rejected overlooked : Prop} (err : OracleError)
    (w : World Nat) (h : rejected) :
    Decides log pos failed rejected overlooked (.error err : Outcome α) w := .inl ⟨h, err, rfl⟩

theorem Decides.accepted {α : Type} {rejected overlooked : Prop} {a : α} {w : World Nat}
    (h : ¬ rejected) (hw : At log pos failed' w) (hiff : failed' ↔ failed ∨ overlooked) :
    Decides log pos failed rejected overlooked (.ok a) w := .inr ⟨h, ⟨a, rfl⟩, hw.congr hiff⟩

/-- The release at the end of a bracket decides nothing. -/
theorem ensures_release {α : Type} {rejected overlooked : Prop} {r : Outcome α}
    (lob : Option DpiLob) :
    Ensures (Decides log pos failed rejected overlooked r) (oracleLobRelease s.env lob) fun _ =>
      Decides log pos failed rejected overlooked r := by
  cases lob with
  | none => exact Ensures.pure fun w hw => hw
  | some lob =>
      rintro w (hrejected | ⟨haccepted, ha, hw⟩)
      · exact ⟨_, _, rfl, .inl hrejected⟩
      · obtain ⟨_, w', hrun, hw'⟩ := ensures_odpiRelease s (.lob lob) w hw
        exact ⟨_, w', hrun, .inr ⟨haccepted, ha, hw'⟩⟩

theorem ensures_lobBracket {rejected overlooked : Prop} {ty : OracleType} (hty : ty.IsLob)
    (data : DpiData)
    (huse : Ensures (At log pos failed) (decodeColumn.use s.env (.lob data.value.asLOB) ty)
      (Decides log pos failed rejected overlooked)) :
    Ensures (At log pos failed) (decodeColumn.value s.env data ty)
      (Decides log pos failed rejected overlooked) := by
  have hvalue : decodeColumn.value s.env data ty =
      decodeColumn.withDataPtrAndOracleType s.env data ty := by
    rcases hty with rfl | rfl <;> rfl
  have hacquire : Ensures (At log pos failed) (decodeColumn.acquire data ty) fun ptr w =>
      ptr = .lob data.value.asLOB ∧ At log pos failed w := by
    rcases hty with rfl | rfl <;>
      exact (ensures_readMember _ _).bind_of fun a ha => Ensures.pure fun w hw => ⟨by rw [ha], hw⟩
  rw [hvalue]
  refine Ensures.bracket hacquire (U := fun ptr r w =>
    ptr = .lob data.value.asLOB ∧ Decides log pos failed rejected overlooked r w) ?_ ?_
  · rintro _ w ⟨rfl, hw⟩
    obtain ⟨r, w', hrun, hdecides⟩ := huse w hw
    exact ⟨r, w', hrun, rfl, hdecides⟩
  · rintro _ r w ⟨rfl, hw⟩
    rcases hty with rfl | rfl <;> exact ensures_release s _ w hw

theorem ensures_blob (data : DpiData) :
    Ensures (At log pos failed) (decodeColumn.value s.env data .oracleTypeBlob)
      (Decides log pos failed ((s.column pos).RejectedValue s.nullString data .oracleTypeBlob)
        ((s.column pos).OverlookedValue data .oracleTypeBlob)) := by
  refine ensures_lobBracket s (.inr rfl) data ?_
  cases hlob : data.value.asLOB with
  | none => exact fun w _ => ⟨_, w, rfl, .rejected _ _ (.inl hlob)⟩
  | some lob =>
      refine (ensures_oracleLobSize s lob).bind fun n => ?_
      rintro w (⟨herror, hn⟩ | ⟨size, hsize, rfl, hw⟩)
      · exact ⟨_, w, by simp [Runs, hn]; rfl, .rejected _ _ (.inr (.inl herror))⟩
      · by_cases hneg : size.toInt64 < 0
        · exact ⟨_, w, by simp [Runs, hneg]; rfl, .rejected _ _ (.inr (.inr ⟨size, hsize, hneg⟩))⟩
        · have haccepted : ¬ (s.column pos).RejectedValue s.nullString data .oracleTypeBlob := by
            simp [ColumnScript.RejectedValue, hlob, hsize, IsError, hneg]
          rw [if_neg hneg]
          exact ((ensures_oracleLobRead s lob 1 _).bind fun bytes =>
            Ensures.pure fun w hw => .accepted haccepted hw Iff.rfl) w hw

theorem ensures_clob (data : DpiData) :
    Ensures (At log pos failed) (decodeColumn.value s.env data .oracleTypeClob)
      (Decides log pos failed ((s.column pos).RejectedValue s.nullString data .oracleTypeClob)
        ((s.column pos).OverlookedValue data .oracleTypeClob)) := by
  refine ensures_lobBracket s (.inl rfl) data ?_
  cases hlob : data.value.asLOB with
  | none => exact fun w _ => ⟨_, w, rfl, .rejected _ _ hlob⟩
  | some lob =>
      refine (ensures_oracleClobRead s lob).bind fun text => Ensures.pure fun w hw => ?_
      exact .accepted (by simp [ColumnScript.RejectedValue, hlob]) hw Iff.rfl

theorem ensures_raw (data : DpiData) :
    Ensures (At log pos failed) (decodeColumn.value s.env data .oracleTypeRaw)
      (Decides log pos failed ((s.column pos).RejectedValue s.nullString data .oracleTypeRaw)
        ((s.column pos).OverlookedValue data .oracleTypeRaw)) := by
  refine Ensures.bracket (Ensures.pure (Q := fun ptr w => ptr = .data data ∧ At log pos failed w)
    fun w hw => ⟨rfl, hw⟩) ?_ fun _ _ => Ensures.pure fun w hw => hw
  rintro _ w ⟨rfl, hw⟩
  refine ((ensures_oracleDataBytesHex s data).bind_of fun hex hhex => ?_) w hw
  rw [hhex]
  cases hdecode : hexDecode ((s.column pos).rawText s.nullString data) with
  | none => exact Ensures.pure fun w _ => .rejected _ _ hdecode
  | some bytes =>
      refine Ensures.pure fun w hw => .accepted ?_ hw Iff.rfl
      simp [ColumnScript.RejectedValue, hdecode]

theorem ensures_boolean (data : DpiData) :
    Ensures (At log pos failed) (decodeColumn.value s.env data .oracleTypeBoolean)
      (Decides log pos failed ((s.column pos).RejectedValue s.nullString data .oracleTypeBoolean)
        ((s.column pos).OverlookedValue data .oracleTypeBoolean)) := by
  refine (ensures_readMember _ _).bind_of ?_
  rintro _ rfl
  split
  · rename_i hzero
    refine Ensures.pure fun w hw => .accepted (fun hne => hne.1 hzero) hw ?_
    simp [ColumnScript.OverlookedValue]
  · rename_i hone
    refine Ensures.pure fun w hw => .accepted (fun hne => hne.2 hone) hw ?_
    simp [ColumnScript.OverlookedValue]
  · rename_i hzero hone
    exact Ensures.pure fun w _ => .rejected _ _ ⟨hzero, hone⟩

theorem ensures_text {ty : OracleType} (data : DpiData)
    (hvalue : decodeColumn.value s.env data ty = do
      let text ← oracleDataString s.env data
      return .ok (.oracleString (fromC s.env text)))
    (hrejected : ¬ (s.column pos).RejectedValue s.nullString data ty)
    (hoverlooked : (s.column pos).OverlookedValue data ty ↔
      data.value.asBytes ≠ none ∧ (s.column pos).blocks .string = false) :
    Ensures (At log pos failed) (decodeColumn.value s.env data ty)
      (Decides log pos failed ((s.column pos).RejectedValue s.nullString data ty)
        ((s.column pos).OverlookedValue data ty)) := by
  rw [hvalue]
  refine (ensures_oracleDataString s data).bind fun text => Ensures.pure fun w hw => ?_
  exact .accepted hrejected hw (by rw [hoverlooked])

theorem ensures_value (data : DpiData) (ty : OracleType) :
    Ensures (At log pos failed) (decodeColumn.value s.env data ty)
      (Decides log pos failed ((s.column pos).RejectedValue s.nullString data ty)
        ((s.column pos).OverlookedValue data ty)) := by
  have hread : ∀ {β : Type} {rejected overlooked : Prop} (member : Member) (b : β)
      (f : β → OracleValue), ¬ rejected → ¬ overlooked →
      Ensures (At log pos failed) (do return .ok (f (← readMember member b)))
        (Decides log pos failed rejected overlooked) := by
    intro β rejected overlooked member b f hrejected hoverlooked
    refine (ensures_readMember member b).bind fun a => Ensures.pure fun w hw => ?_
    exact .accepted hrejected hw.2 (by simp [hoverlooked])
  cases ty with
  | oracleTypeVarchar => exact ensures_text s data rfl id Iff.rfl
  | oracleTypeChar => exact ensures_text s data rfl id Iff.rfl
  | oracleTypeNVarchar => exact ensures_text s data rfl id Iff.rfl
  | oracleTypeNChar => exact ensures_text s data rfl id Iff.rfl
  | oracleTypeRaw => exact ensures_raw s data
  | oracleTypeClob => exact ensures_clob s data
  | oracleTypeBlob => exact ensures_blob s data
  | oracleTypeBoolean => exact ensures_boolean s data
  | oracleTypeUnknown n => exact Ensures.pure fun w _ => .rejected _ _ trivial
  | _ => exact hread _ _ _ id id

theorem ensures_cell {stmt : OracleStmt} {column : Int32} (hpos : (position column).toNat = pos)
    (ty : OracleType) :
    Ensures (At log pos failed) (decodeColumn.cell s.env stmt column ty)
      (Decides log pos failed
        (IsError (s.column pos).value ∨
          (s.column pos).OnCell ((s.column pos).RejectedValue s.nullString) ty)
        ((s.column pos).OnCell (s.column pos).OverlookedValue ty)) := by
  let req := Req.stmtGetQueryValue stmt.stmt (position column)
  have hreply : s.reply pos req = (s.column pos).value := by rw [← hpos]; rfl
  have hcolumn : Ensures (At log pos failed) (oracleColumnValue s.env stmt column) fun r w =>
      (IsError (s.column pos).value ∧ r = none) ∨
        ∃ native data, (s.column pos).value = .ok (native, data) ∧ r = some data ∧
          At log pos failed w := by
    refine (ensures_odpi s req (s.column pos).value hreply).bind_of ?_
    rintro _ rfl
    cases (s.column pos).value with
    | error failure =>
        exact (ensures_oracleCaptureLastError).bind fun _ =>
          Ensures.pure fun w _ => .inl ⟨⟨failure, rfl⟩, rfl⟩
    | ok value =>
        refine Ensures.pure fun w hw => .inr ⟨_, _, rfl, rfl, hw.congr (by simp [IsError])⟩
  refine hcolumn.bind fun r => ?_
  rintro w (⟨herror, rfl⟩ | ⟨native, data, hvalue, rfl, hw⟩)
  · exact ⟨_, w, rfl, .rejected _ _ (.inl herror)⟩
  · have hcell : ∀ p, (s.column pos).OnCell p ty ↔ data.isNull = 0 ∧ p data ty := by
      simp [ColumnScript.OnCell, hvalue]
    have hnoerror : ¬ IsError (s.column pos).value := by simp [IsError, hvalue]
    simp only [hcell, hnoerror, false_or, oracleDataIsNull, ne_eq]
    by_cases hnull : data.isNull = 0
    · simpa [hnull] using ensures_value s data ty w hw
    · exact ⟨.ok .oracleNull, w, by simp [Runs, hnull], .accepted (by simp [hnull]) hw
        (by simp [hnull])⟩

theorem ensures_oracleQueryInfo {stmt : OracleStmt} {column : Int32}
    (hpos : (position column).toNat = pos + 1) :
    Ensures (At log pos failed) (oracleQueryInfo s.env stmt column) fun ptr w =>
      (((s.column (pos + 1)).blocks .queryInfo = false ∨ IsError (s.column (pos + 1)).info) ∧
          ptr = none) ∨
        ∃ block info, (s.column (pos + 1)).blocks .queryInfo = true ∧
          (s.column (pos + 1)).info = .ok info ∧ ptr = some (block, info) ∧
            At log (pos + 1) failed w := by
  let req := Req.stmtGetQueryInfo stmt.stmt (position column)
  have hreply : s.reply (pos + 1) req = (s.column (pos + 1)).info := by rw [← hpos]; rfl
  refine (ensures_malloc s (pos + 1) rfl _).bind_of fun block hblock => ?_
  cases block with
  | none => exact Ensures.pure fun w _ => .inl ⟨.inl hblock.symm, rfl⟩
  | some block =>
      refine (ensures_odpi s req (s.column (pos + 1)).info hreply).bind_of ?_
      rintro _ rfl
      cases (s.column (pos + 1)).info with
      | error failure =>
          exact (ensures_free _).bind fun _ => (ensures_oracleCaptureLastError).bind fun _ =>
            Ensures.pure fun w _ => .inl ⟨.inr ⟨failure, rfl⟩, rfl⟩
      | ok info =>
          refine Ensures.pure fun w hw => .inr ⟨block, info, hblock.symm, rfl, rfl, hw.congr ?_⟩
          simp [IsError, ← hblock]

theorem ensures_getColumnInfo {stmt : OracleStmt} {column : Int32}
    (hpos : (position column).toNat = pos + 1) :
    Ensures (At log pos failed) (getColumnInfo s.env stmt column) fun r w =>
      (((s.column (pos + 1)).blocks .queryInfo = false ∨ IsError (s.column (pos + 1)).info) ∧
          ∃ err, r = .error err) ∨
        ∃ found info, (s.column (pos + 1)).blocks .queryInfo = true ∧
          (s.column (pos + 1)).info = .ok info ∧ r = .ok found ∧
            found.oracletype = fromOracleTypeNum info.typeInfo.oracleTypeNum ∧
              At log (pos + 1) (failed ∨ (s.column (pos + 1)).blocks .infoName = false) w := by
  refine (ensures_oracleQueryInfo s hpos).bind fun ptr => ?_
  rintro w (⟨herror, rfl⟩ | ⟨block, info, hblock, hinfo, rfl, hw⟩)
  · exact ⟨_, w, rfl, .inl ⟨herror, _, rfl⟩⟩
  · have hname : Ensures (At log (pos + 1) failed) (oracleQueryInfoName s.env info) fun _ w =>
        At log (pos + 1) (failed ∨ (s.column (pos + 1)).blocks .infoName = false) w := by
      refine (ensures_malloc s (pos + 1) rfl _).bind fun name => ?_
      cases name <;> exact Ensures.pure fun w hw => hw.2
    obtain ⟨name, w₁, hrun, hw₁⟩ := hname w hw
    obtain ⟨_, w₂, hfree, hw₂⟩ := ensures_free block w₁ hw₁
    let found : ColumnInfo := ⟨fromC s.env name, fromOracleTypeNum (oracleQueryInfoType info),
      (oracleQueryInfoSize info).toInt32.toInt.toNat, oracleQueryInfoNullable info ≠ 0⟩
    have huse : Runs (withQueryInfo.use s.env (fun info => do
        let name ← oracleQueryInfoName s.env info
        return ⟨fromC s.env name, fromOracleTypeNum (oracleQueryInfoType info),
          (oracleQueryInfoSize info).toInt32.toInt.toNat, oracleQueryInfoNullable info ≠ 0⟩)
        (some (block, info))) w (.ok found) w₁ :=
      (hrun.bind (Runs.pure found w₁)).bind (Runs.pure _ _)
    exact ⟨.ok found, w₂, huse.bind (hfree.bind (Runs.pure _ _)),
      .inr ⟨found, info, hblock, hinfo, rfl, rfl, hw₂⟩⟩

theorem ensures_decodeColumn {stmt : OracleStmt} {column : Int32}
    (hpos : (position column).toNat = pos + 1) :
    Ensures (At log pos failed) (decodeColumn s.env stmt column)
      (Decides log (pos + 1) failed ((s.column (pos + 1)).Rejected s.nullString)
        (s.column (pos + 1)).Overlooked) := by
  refine (ensures_getColumnInfo s hpos).bind fun r => ?_
  rintro w (⟨herror, err, rfl⟩ | ⟨found, info, hblock, hinfo, rfl, htype, hw⟩)
  · refine ⟨_, w, rfl, .rejected _ _ ?_⟩
    rcases herror with herror | herror
    · exact .inl herror
    · exact .inr (.inl herror)
  · have hvalue : ∀ p, (s.column (pos + 1)).OnValue p ↔
        (s.column (pos + 1)).OnCell p found.oracletype := by
      simp [ColumnScript.OnValue, hinfo, htype]
    obtain ⟨r, w', hrun, hdecides⟩ := ensures_cell s hpos found.oracletype w hw
    refine ⟨r, w', hrun, ?_⟩
    have hrejected : (s.column (pos + 1)).Rejected s.nullString ↔
        IsError (s.column (pos + 1)).value ∨ (s.column (pos + 1)).OnCell
          ((s.column (pos + 1)).RejectedValue s.nullString) found.oracletype := by
      simp [ColumnScript.Rejected, hblock, hinfo, IsError, hvalue]
    simpa only [Decides, hrejected, ColumnScript.Overlooked, hvalue, or_assoc] using hdecides

theorem after_iff (p : ColumnScript → Prop) (h : pos < s.columns.toNat) :
    s.After p pos ↔ p (s.column (pos + 1)) ∨ s.After p (pos + 1) := by
  constructor
  · rintro ⟨next, hlt, hle, hp⟩
    by_cases heq : next = pos + 1
    · exact .inl (heq ▸ hp)
    · exact .inr ⟨next, by omega, hle, hp⟩
  · rintro (hp | ⟨next, hlt, hle, hp⟩)
    · exact ⟨pos + 1, by omega, h, hp⟩
    · exact ⟨next, by omega, hle, hp⟩

theorem not_after (p : ColumnScript → Prop) (h : s.columns.toNat ≤ pos) : ¬ s.After p pos := by
  rintro ⟨next, hlt, hle, -⟩
  omega

/-- What the columns after `pos` make of a row. -/
def Finishes (log : List Event) (pos : Nat) (failed : Prop) (r : Outcome (List OracleValue))
    (w : World Nat) : Prop :=
  (s.After (·.Rejected s.nullString) pos ∧ ∃ err, r = .error err) ∨
    (¬ s.After (·.Rejected s.nullString) pos ∧
      (∃ row, r = .ok row ∧ row.length = s.columns.toNat) ∧
        At log s.columns.toNat (failed ∨ s.After (·.Overlooked) pos) w)

/-- The loop over the columns, by induction on how many are left. -/
theorem ensures_go (stmt : Statement) (hsize : s.columns.toNat < 2 ^ 31) (left : Nat)
    {index : Int32} {acc : List OracleValue} (hleft : pos + left = s.columns.toNat)
    (hindex : index.toInt = pos) (hacc : acc.length = pos) :
    Ensures (At log pos failed) (fetchRow.go s.env stmt s.columns.toInt32 index acc)
      (s.Finishes log pos failed) := by
  have hcount : s.columns.toInt32.toInt = s.columns.toNat := by
    rw [toInt_toInt32]
    exact Int.bmod_eq_of_le (by omega) (by omega)
  induction left generalizing pos failed index acc with
  | zero =>
      have hdone : index ≥ s.columns.toInt32 := Int32.le_iff_toInt_le.mpr (by omega)
      have hend : s.columns.toNat ≤ pos := by omega
      rw [fetchRow.go_done s.env hdone]
      refine Ensures.pure fun w hw => .inr ⟨s.not_after _ hend, ⟨_, rfl, by simp; omega⟩, ?_⟩
      obtain rfl : pos = s.columns.toNat := by omega
      exact hw.congr (by simp [s.not_after _ hend])
  | succ left ih =>
      have hnext : index < s.columns.toInt32 := Int32.lt_iff_toInt_lt.mpr (by omega)
      have hpos : (position index).toNat = pos + 1 := by
        have := toNat_position (by omega) hnext
        omega
      have hlt : pos < s.columns.toNat := by omega
      rw [fetchRow.go_next s.env hnext]
      intro w hw
      obtain ⟨r, w₁, hrun, hdecides⟩ := ensures_decodeColumn s hpos w hw
      rcases hdecides with ⟨hrejected, err, rfl⟩ | ⟨haccepted, ⟨v, rfl⟩, hw₁⟩
      · refine ⟨.error err, w₁, runs_andThen.mpr (.inl ⟨err, hrun, rfl⟩), .inl ⟨?_, err, rfl⟩⟩
        exact (s.after_iff _ hlt).mpr (.inl hrejected)
      · have hindex' : (index + 1).toInt = ((pos + 1 : Nat) : Int) := by
          rw [toInt_add_one hnext]
          omega
        have hacc' : (v :: acc).length = pos + 1 := by simp [hacc]
        obtain ⟨r, w', hgo, hfinishes⟩ := ih (by omega) hindex' hacc' w₁ hw₁
        refine ⟨r, w', runs_andThen.mpr (.inr ⟨v, w₁, hrun, hgo⟩), ?_⟩
        simpa only [Finishes, s.after_iff _ hlt, haccepted, false_or, or_assoc] using hfinishes

/-- The fetch and the column count come before the columns. -/
theorem ensures_oracleFetch (stmt : OracleStmt) :
    Ensures (At log pos failed) (oracleFetch s.env stmt) fun rc w =>
      (IsError s.fetch ∧ rc < 0) ∨
        ∃ found, s.fetch = .ok found ∧ rc = (if found then 1 else 0) ∧ At log pos failed w := by
  refine (ensures_odpi s (.stmtFetch stmt.stmt) s.fetch rfl).bind_of ?_
  rintro _ rfl
  cases s.fetch with
  | error failure =>
      exact (ensures_oracleCaptureLastError).bind fun _ =>
        Ensures.pure fun w _ => .inl ⟨⟨failure, rfl⟩, by decide⟩
  | ok found => exact Ensures.pure fun w hw => .inr ⟨found, rfl, rfl, hw.congr (by simp [IsError])⟩

theorem ensures_oracleColumnCount (stmt : OracleStmt) :
    Ensures (At log pos failed) (oracleColumnCount s.env stmt) fun count w =>
      (s.countFailure ≠ none ∧ count < 0 ∧ At log pos True w) ∨
        (s.countFailure = none ∧ count = s.columns.toInt32 ∧ At log pos failed w) := by
  let req := Req.stmtGetNumQueryColumns stmt.stmt
  cases hfailure : s.countFailure with
  | some failure =>
      have hreply : s.reply pos req = .error failure := by simp [reply, req, hfailure]
      refine (ensures_odpi s req (.error failure) hreply).bind_of ?_
      rintro _ rfl
      refine (ensures_oracleCaptureLastError).bind fun _ => Ensures.pure fun w hw => ?_
      exact .inl ⟨by simp, by decide, hw.congr (by simp [IsError])⟩
  | none =>
      have hreply : s.reply pos req = .ok s.columns := by simp [reply, req, hfailure]
      refine (ensures_odpi s req (.ok s.columns) hreply).bind_of ?_
      rintro _ rfl
      exact Ensures.pure fun w hw => .inr ⟨rfl, rfl, hw.congr (by simp [IsError])⟩

theorem surfaces_error (columns : UInt32) (delta : List Event) (err : OracleError) :
    Surfaces columns delta (.error err) :=
  ⟨fun _ => ⟨err, rfl⟩, by simp⟩

theorem At.surfaces_iff {w : World Nat} {delta : List Event} (columns : UInt32)
    (hw : At log pos failed w) (hlog : w.log = log ++ delta) (row : Option (List OracleValue)) :
    Surfaces columns delta (.ok row) ↔
      ¬ failed ∧ ∀ values, row = some values → values.length = columns.toNat := by
  obtain ⟨-, delta', hdelta, hfailed⟩ := hw
  obtain rfl : delta = delta' := List.append_cancel_left (hlog.symm.trans hdelta)
  simp [Surfaces, ← hfailed]

/-- What the caller learns of a row once it has been fetched. -/
theorem surfaces_row_iff {stmt : Statement} {w w' : World Nat} {delta : List Event}
    {result : Outcome (Option (List OracleValue))} (hfetch : s.fetch = .ok true)
    (hw : At log 0 False w) (hlog : w'.log = log ++ delta)
    (hrun : Runs (do
      let count ← oracleColumnCount s.env stmt.ptr
      match ← fetchRow.go s.env stmt count 0 [] with
      | .error err => return .error err
      | .ok values => return .ok (some values)) w result w') :
    Surfaces s.columns delta result ↔ s.Surfaced := by
  obtain ⟨count, w₁, hcount, hrest⟩ := runs_bind.mp hrun
  have hnegative : count < 0 → result = .ok (some []) ∧ w' = w₁ := by
    intro hneg
    have hdone : (0 : Int32) ≥ count := Int32.le_of_lt hneg
    rw [fetchRow.go_done s.env hdone] at hrest
    cases hrest
    exact ⟨rfl, rfl⟩
  rcases (s.ensures_oracleColumnCount stmt.ptr).of_runs hw hcount with
    ⟨hfailure, hneg, hw₁⟩ | ⟨hnone, rfl, hw₁⟩
  · obtain ⟨rfl, rfl⟩ := hnegative hneg
    rw [hw₁.surfaces_iff s.columns hlog]
    simp [Surfaced, hfetch, hfailure]
  · by_cases hsize : s.columns.toNat < 2 ^ 31
    · have hsurfaced : s.Surfaced ↔
          (s.After (·.Overlooked) 0 → s.After (·.Rejected s.nullString) 0) := by
        simp only [Surfaced, hfetch, hnone, hsize, true_and, forall_const]
      obtain ⟨row, w₂, hgo, hreturn⟩ := runs_bind.mp hrest
      have hfinishes := (s.ensures_go stmt hsize s.columns.toNat (Nat.zero_add _) rfl rfl).of_runs
        hw₁ hgo
      rcases hfinishes with ⟨hrejected, err, rfl⟩ | ⟨haccepted, ⟨values, rfl, hlength⟩, hw₂⟩
      · cases hreturn
        simp [surfaces_error, hsurfaced, hrejected]
      · cases hreturn
        rw [hw₂.surfaces_iff s.columns hlog]
        simp [hsurfaced, haccepted, hlength]
    · obtain ⟨rfl, rfl⟩ := hnegative (toInt32_neg (Nat.le_of_not_lt hsize))
      rw [hw₁.surfaces_iff s.columns hlog]
      have hlength : s.columns.toNat ≠ 0 := by omega
      have hsurfaced : ¬ s.Surfaced := fun h => hsize (h hfetch).2.1
      simp [hsurfaced, hlength.symm]

end RowScript

/-- Every failure reaches the caller unless one is overlooked and no column is refused. -/
theorem fetchRow_surfaces_iff (s : RowScript) (stmt : Statement) (w : World Nat) :
    ∃ result w' delta, Runs (fetchRow s.env stmt) { w with odpi := 0 } result w' ∧
      w'.log = w.log ++ delta ∧ (Surfaces s.columns delta result ↔ s.Surfaced) := by
  have hstart : RowScript.At w.log 0 False { w with odpi := 0 } := ⟨rfl, [], by simp, by simp⟩
  have hgrows : Grows (fetchRow s.env stmt) := grows_fetchRow stmt
  obtain ⟨result, w', hrun, ⟨delta, hlog⟩, -⟩ := hgrows { w with odpi := 0 }
  refine ⟨result, w', delta, hrun, hlog, ?_⟩
  obtain ⟨rc, w₁, hfetch, hrest⟩ := runs_bind.mp hrun
  rcases (s.ensures_oracleFetch stmt.ptr).of_runs hstart hfetch with
    ⟨⟨failure, herror⟩, hrc⟩ | ⟨found, hfound, rfl, hw₁⟩
  · rw [if_pos hrc] at hrest
    obtain ⟨lasterr, w₂, -, hreturn⟩ := runs_bind.mp hrest
    cases hreturn
    simp [RowScript.surfaces_error, RowScript.Surfaced, herror]
  · cases found with
    | false =>
        cases hrest
        rw [hw₁.surfaces_iff s.columns hlog]
        simp [RowScript.Surfaced, hfound]
    | true => exact s.surfaces_row_iff hfound hw₁ hlog hrest

theorem endOfFileCode_ne_zero : (3113 : Int32) ≠ 0 := by decide

/-- A statement with a BLOB column, whose LOB cannot be read. -/
def lostConnection : RowScript where
  fetch := .ok true
  countFailure := none
  columns := 1
  column _ :=
    { blocks := fun _ => true
      info := .ok ⟨[0x42], ⟨.blob, 0, 0, 0⟩, 1⟩
      value := .ok (.lob, ⟨0, { DpiDataBuffer.zero with asLOB := some ⟨0⟩ }⟩)
      lobSize := .ok 2
      lobBufferSize := .ok 2
      lobBytes := .error (.oracle ⟨3113, endOfFileCode_ne_zero⟩
        "ORA-03113: end-of-file on communication channel") }
  nullString := ""

/-- The failed read is reported as an empty BLOB. -/
theorem fetchRow_lostConnection_not_surfaced :
    ∃ w', Runs (fetchRow lostConnection.env ⟨⟨0, ⟨0⟩, ⟨0⟩⟩⟩) (World.initial 0)
        (.ok (some [.oracleBlob []])) w' ∧
      (∃ event ∈ w'.log, event.Failed) ∧
      ¬ Surfaces lostConnection.columns w'.log (.ok (some [.oracleBlob []])) := by
  let stmt : OracleStmt := ⟨0, ⟨0⟩, ⟨0⟩⟩
  let w₁ := (World.initial 0).called lostConnection.env (.stmtFetch stmt.stmt)
  let w₂ := w₁.called lostConnection.env (.stmtGetNumQueryColumns stmt.stmt)
  obtain ⟨w₃, hdecode, hfailed⟩ : ∃ w₃, Runs (decodeColumn lostConnection.env stmt 0) w₂
      (.ok (.oracleBlob [])) w₃ ∧ ∃ event ∈ w₃.log, event.Failed :=
    ⟨_, rfl, by decide⟩
  have hrow : Runs (fetchRow lostConnection.env ⟨stmt⟩) (World.initial 0)
      (.ok (some [.oracleBlob []])) w₃ := by
    have hfetch : Runs (oracleFetch lostConnection.env stmt) (World.initial 0) 1 w₁ := rfl
    exact runs_fetchRow_one hfetch rfl hdecode
  refine ⟨w₃, hrow, hfailed, fun hsurfaces => ?_⟩
  obtain ⟨err, herr⟩ := hsurfaces.1 hfailed
  cases herr

end IdrisOracle
