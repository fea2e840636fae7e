import IdrisOracle.Blob
import IdrisOracle.HexWriters

/-! RAW content on its way into a column and back. -/

namespace IdrisOracle

open Effect

section Text

variable {b : ByteString}

theorem ofNat_digitAt (n : UInt8) (hn : n.toNat < 16) :
    Char.ofNat (digitAt n).toNat = hexDigit n := by
  obtain ⟨k, hk, rfl⟩ : ∃ k : Nat, k < 16 ∧ n = UInt8.ofNat k := ⟨n.toNat, hn, by simp⟩
  interval_cases k <;> decide

theorem latin_hexBytes (b : ByteString) : latin (hexBytes b) = (hexEncode b).toList := by
  rw [hexEncode, String.toList_ofList]
  induction b with
  | nil => rfl
  | cons byte b ih =>
      have hhigh := ofNat_digitAt _ (toNat_high_lt byte)
      have hlow := ofNat_digitAt _ (toNat_low_lt byte)
      rw [List.flatMap_cons, ← ih]
      simp [latin, hexBytes, hexByte, hhigh, hlow]

/-- The text the library binds for a RAW is the text of the Idris writer. -/
theorem counted_toC_hexEncode (hlength : b.length < 2 ^ 31) :
    counted (toC (hexEncode b)) = hexBytes b := by
  have hcut : CString.cut (hexBytes b) = hexBytes b := by
    rw [CString.cut, List.takeWhile_eq_self_iff]
    intro byte hbyte
    rw [bne_iff_ne]
    rintro rfl
    exact zero_not_mem_hexBytes b hbyte
  have hmod : (hexBytes b).length % 2 ^ 32 = (hexBytes b).length :=
    Nat.mod_eq_of_lt (by rw [length_hexBytes]; omega)
  rw [toC, encode_hexEncode, hcut, counted, hmod, List.take_length]

/-- Oracle reads the bound text as the content. -/
theorem convert_hexBytes (H : HexAssignment) : H.convert (hexBytes b) = some b := by
  apply H.complete
  rw [latin_hexBytes]
  exact hexDecode_hexEncode b

end Text

theorem invalidHexCode_ne_zero : (1465 : Int32) ≠ 0 := by decide

def invalidHex : DpiError := .oracle ⟨1465, invalidHexCode_ne_zero⟩ "ORA-01465: invalid hex number"

/-- The assignment of a variable to a RAW(2000) column. -/
def toRaw (H : HexAssignment) : Conversion .oracleTypeRaw := fun type data =>
  let value := data.value.asBytes.getD []
  if data.isNull ≠ 0 ∨ value = [] then .ok none
  else if type = .varchar then
    (H.convert value).elim (.error invalidHex) fun bytes =>
      if h : bytes.length ≤ 2000 then .ok (some ⟨bytes, by omega⟩)
      else .error (.oracle ⟨12899, by decide⟩ "ORA-12899: value too large for column")
  else .error inconsistentTypes

def rawLayout : Layout .oracleTypeRaw where
  info := ⟨[0x52], ⟨.raw, 0, 0, 0⟩, 1⟩
  type_eq := rfl
  native := .bytes
  native_eq := rfl
  fill content := { DpiDataBuffer.zero with asBytes := some content.1 }
  fills _ := rfl
  lobBytes _ := []

section Insert

variable {b : ByteString}

theorem toRaw_bound (H : HexAssignment) (hb : b ≠ []) (hlength : b.length ≤ 2000) :
    ∃ h, toRaw H .varchar (dpiDataSetBytes .zero (counted (toC (hexEncode b)))) =
      .ok (some ⟨b, h⟩) := by
  have hne : hexBytes b ≠ [] := by
    intro hnil
    have htwice := length_hexBytes b
    rw [hnil, List.length_nil] at htwice
    exact hb (List.length_eq_zero_iff.mp (by omega))
  refine ⟨by omega, ?_⟩
  rw [counted_toC_hexEncode (by omega)]
  simp [toRaw, dpiDataSetBytes, DpiData.zero, hne, convert_hexBytes, hlength]

/-- The INSERT of a RAW stores its content. -/
theorem stored_raw {σ : Type} {env : Env σ} {H : HexAssignment} {insert : Statement}
    {name : String} (T : InsertColumn env (toRaw H) insert name) (hb : b ≠ [])
    (hlength : b.length ≤ 2000) {r : Outcome Unit} {w w₁ : World σ}
    (hinsert : Runs (bindAndExecute env insert ⟨name, .oracleRaw b⟩) w r w₁)
    (hclean : NoFailure w w₁) :
    r = .ok () ∧ ∃ h, T.stored w₁.odpi = some ⟨b, h⟩ := by
  obtain ⟨hbound, hconvert⟩ := toRaw_bound H hb hlength
  rcases T.outcome rfl rfl hinsert fun _ => hclean with ⟨_, _, hfailure, -⟩ | ⟨_, hok, rfl, hcolumn⟩
  · cases hfailure.symm.trans hconvert
  · cases hok.symm.trans hconvert
    exact ⟨rfl, hbound, hcolumn⟩

end Insert

section Refusal

variable {σ : Type} {env : Env σ} {stmt : OracleStmt} {column : Int32} {w w₁ w' : World σ}

/-- The block for a hexadecimal text is refused between the two worlds. -/
def HexRefused (w w' : World σ) : Prop :=
  ∃ delta, w'.log = w.log ++ delta ∧ .allocFailed .bytesHex ∈ delta

/-- No block for a hexadecimal text is refused between the two worlds. -/
def HexGranted (w w' : World σ) : Prop :=
  ∃ delta, w'.log = w.log ++ delta ∧ .allocFailed .bytesHex ∉ delta

theorem HexGranted.not_refused (h : HexGranted w w') : ¬ HexRefused w w' := by
  rintro ⟨delta, hlog, hrefused⟩
  obtain ⟨delta', hlog', hgranted⟩ := h
  rw [hlog] at hlog'
  rw [List.append_cancel_left hlog'] at hrefused
  exact hgranted hrefused

theorem NoFailure.hexGranted (h : NoFailure w w') : HexGranted w w' := by
  obtain ⟨delta, hlog, hclean⟩ := h
  exact ⟨delta, hlog, fun hmem => hclean _ hmem trivial⟩

theorem HexGranted.trans (hfirst : HexGranted w w₁) (hrest : HexGranted w₁ w') :
    HexGranted w w' := by
  obtain ⟨before, hbefore, hgranted⟩ := hfirst
  obtain ⟨after, hafter, hgranted'⟩ := hrest
  refine ⟨before ++ after, by rw [hafter, hbefore, List.append_assoc], fun hmem => ?_⟩
  rcases List.mem_append.mp hmem with h | h
  · exact hgranted h
  · exact hgranted' h

theorem HexRefused.before (h : HexRefused w w₁) (hrest : Extends w₁ w') : HexRefused w w' := by
  obtain ⟨delta, hlog, hrefused⟩ := h
  obtain ⟨⟨after, hafter⟩, -⟩ := hrest
  exact ⟨delta ++ after, by rw [hafter, hlog, List.append_assoc], by simp [hrefused]⟩

theorem HexRefused.after (h : HexRefused w₁ w') (hfirst : Extends w w₁) : HexRefused w w' := by
  obtain ⟨delta, hlog, hrefused⟩ := h
  obtain ⟨⟨before, hbefore⟩, -⟩ := hfirst
  exact ⟨before ++ delta, by rw [hlog, hbefore, List.append_assoc], by simp [hrefused]⟩

/-- A refusal that does not come first comes later. -/
theorem HexRefused.rest (h : HexRefused w w') (hfirst : HexGranted w w₁)
    (hrest : Extends w₁ w') : HexRefused w₁ w' := by
  obtain ⟨delta, hlog, hrefused⟩ := h
  obtain ⟨before, hbefore, hgranted⟩ := hfirst
  obtain ⟨⟨after, hafter⟩, -⟩ := hrest
  refine ⟨after, hafter, ?_⟩
  rw [hafter, hbefore, List.append_assoc] at hlog
  rw [← List.append_cancel_left hlog] at hrefused
  exact (List.mem_append.mp hrefused).resolve_left hgranted

/-- The environment with an allocator that always has a block for a hexadecimal text. -/
def grantHex (env : Env σ) : Env σ :=
  { env with
    malloc := fun kind size s => (kind = .bytesHex || (env.malloc kind size s).1,
      (env.malloc kind size s).2) }

theorem hexGranted_event {event : Event} (hlog : w'.log = w.log ++ [event])
    (hevent : event ≠ .allocFailed .bytesHex) : HexGranted w w' :=
  ⟨[event], hlog, fun hmem => hevent (List.mem_singleton.mp hmem).symm⟩

theorem hexGranted_silent (hlog : w'.log = w.log) : HexGranted w w' :=
  ⟨[], by rw [hlog, List.append_nil], List.not_mem_nil⟩

theorem follows_hexGranted (env : Env σ) :
    Follows (grantHex env) (fun _ => True) (fun _ => True)
      (HexGranted : World σ → World σ → Prop) where
  refl _ := hexGranted_silent rfl
  trans _ _ _ hfirst hrest := hfirst.trans hrest
  called _ _ _ := hexGranted_event rfl fun heq => by cases heq
  released _ _ _ := hexGranted_event rfl fun heq => by cases heq
  stored _ _ _ := hexGranted_silent rfl
  allocated _ _ _ := hexGranted_event rfl fun heq => by cases heq
  refused kind size w hrefused := by
    refine hexGranted_event rfl fun heq => ?_
    cases heq
    simp [grantHex] at hrefused
  freed _ _ := hexGranted_event rfl fun heq => by cases heq
  read _ _ := hexGranted_event rfl fun heq => by cases heq
  captured _ _ := hexGranted_silent rfl
  ready _ := hexGranted_silent rfl

theorem hexGranted_getColumnInfo {r : Outcome ColumnInfo}
    (hrun : Runs (getColumnInfo env stmt column) w r w') : HexGranted w w' := by
  have hsame : getColumnInfo (grantHex env) stmt column = getColumnInfo env stmt column := rfl
  rw [← hsame] at hrun
  exact (preserves_getColumnInfo (follows_hexGranted env) trivial stmt column).of_runs hrun

theorem hexGranted_oracleColumnValue {ptr : Option DpiData}
    (hrun : Runs (oracleColumnValue env stmt column) w ptr w') : HexGranted w w' := by
  have hsame : oracleColumnValue (grantHex env) stmt column = oracleColumnValue env stmt column :=
    rfl
  rw [← hsame] at hrun
  exact (preserves_oracleColumnValue (follows_hexGranted env) trivial stmt column).of_runs hrun

theorem oracleLobRead_grantHex (lob : Option DpiLob) (offset length : Int64) :
    oracleLobRead (grantHex env) lob offset length = oracleLobRead env lob offset length := rfl

theorem use_grantHex {ty : OracleType} (hty : ty ≠ .oracleTypeRaw) (ptr : DecodePtr) :
    decodeColumn.use (grantHex env) ptr ty = decodeColumn.use env ptr ty := by
  cases ty with
  | oracleTypeRaw => exact absurd rfl hty
  | oracleTypeBlob =>
      cases ptr with
      | data data => rfl
      | lob lob =>
          cases lob with
          | none => rfl
          | some lob =>
              simp only [decodeColumn.use, oracleLobRead_grantHex]
              rfl
  | oracleTypeClob =>
      cases ptr with
      | data data => rfl
      | lob lob => cases lob <;> rfl
  | _ => rfl

theorem value_grantHex {ty : OracleType} (hty : ty ≠ .oracleTypeRaw) (data : DpiData) :
    decodeColumn.value (grantHex env) data ty = decodeColumn.value env data ty := by
  have hptr : decodeColumn.withDataPtrAndOracleType (grantHex env) data ty =
      decodeColumn.withDataPtrAndOracleType env data ty :=
    congrArg (bracket (decodeColumn.acquire data ty) · fun ptr => decodeColumn.release env ptr ty)
      (funext (use_grantHex hty))
  cases ty with
  | oracleTypeRaw => exact absurd rfl hty
  | oracleTypeBlob | oracleTypeClob => exact hptr
  | _ => rfl

/-- Only a RAW asks for the block of a hexadecimal text. -/
theorem hexGranted_value {data : DpiData} {ty : OracleType} {r : Outcome OracleValue}
    (hty : ty ≠ .oracleTypeRaw) (hrun : Runs (decodeColumn.value env data ty) w r w') :
    HexGranted w w' := by
  rw [← value_grantHex hty] at hrun
  exact (preserves_value (follows_hexGranted env) trivial (fun _ => trivial) data).of_runs hrun

/-- What the decoder makes of the text it is given for a RAW. -/
def rawOf (hex : String) : Outcome OracleValue :=
  (hexDecode hex).elim (.error (invalidRaw hex)) fun bytes => .ok (.oracleRaw bytes)

/-- A RAW that is not NULL comes back as its bytes, or as what Idris makes of a NULL. -/
theorem runs_value_raw {data : DpiData} {r : Outcome OracleValue}
    (hrun : Runs (decodeColumn.value env data .oracleTypeRaw) w r w') :
    HexRefused w w' ∧ r = rawOf env.nullString ∨
      HexGranted w w' ∧ ((data.value.asBytes.getD []).length ≤ 32767 →
        r = .ok (.oracleRaw (data.value.asBytes.getD []))) := by
  obtain ⟨ptr, w₁, w₂, hacquire, huse, hrelease⟩ := runs_bracket.mp hrun
  cases hacquire
  cases hrelease
  obtain ⟨hex, w₃, hhex, huse⟩ := runs_bind.mp huse
  have hr : r = rawOf (fromC env hex) ∧ w' = w₃ := by
    cases hdecode : hexDecode (fromC env hex) with
    | none =>
        simp only [hdecode] at huse
        cases huse
        simp [rawOf, hdecode]
    | some bytes =>
        simp only [hdecode] at huse
        cases huse
        simp [rawOf, hdecode]
  obtain ⟨rfl, rfl⟩ := hr
  obtain ⟨bytes, w₄, hread, hptr⟩ := runs_bind.mp hhex
  cases hread
  obtain ⟨block, w₅, hmalloc, hptr⟩ := runs_bind.mp hptr
  let w₀ := w.record (.read .asBytes)
  let size := (data.value.asBytes.getD []).length * 2 + 1
  cases block with
  | none =>
      cases hptr
      have hrefused := runs_malloc_none hmalloc
      have hlost : Runs (malloc env .bytesHex size) w₀ none (w₀.refused env .bytesHex size) := by
        simp only [Runs, malloc_apply, w₀, size, hrefused]
        rfl
      obtain ⟨-, rfl⟩ := hmalloc.unique hlost
      exact .inl ⟨⟨[.read .asBytes, .allocFailed .bytesHex],
        List.append_assoc _ [_] [_], by simp⟩, rfl⟩
  | some block =>
      cases hptr
      obtain ⟨-, rfl⟩ := runs_malloc_some hmalloc
      refine .inr ⟨⟨[.read .asBytes, .alloc .bytesHex _], List.append_assoc _ [_] [_], by simp⟩,
        fun hlength => ?_⟩
      have hread : fromC env (some (block, hexBlock (2 ^ 32) (data.value.asBytes.getD []))) =
          hexEncode (data.value.asBytes.getD []) := read_hexBlock _ _ (by omega)
      rw [hread, rawOf, hexDecode_hexEncode]
      rfl

end Refusal

section Decode

variable {σ : Type} {env : Env σ} {stmt : OracleStmt} {column : Int32} {w w' : World σ}
  {r : Outcome OracleValue} {hex : String}

/-- The values of the column have at most as many bytes as a RAW can have. -/
def RawCells (env : Env σ) (stmt : OracleStmt) (column : Int32) : Prop :=
  ∀ s native data, (env.call (.stmtGetQueryValue stmt.stmt (position column)) s).1 =
    .ok (native, data) → (data.value.asBytes.getD []).length ≤ 32767

/-- The last error is never the error of an invalid RAW value. -/
theorem not_runs_lastError_invalidRaw {α : Type} :
    ¬ Runs (getLastError env >>= fun err => pure (.error err) : Eff (World σ) (Outcome α)) w
      (.error (invalidRaw hex)) w' := by
  intro hrun
  have herror : w.lastError env = invalidRaw hex := by
    simp [Runs] at hrun
    exact hrun.1
  have hname : "unknown" = "Oracle.Internal.Decode.decodeColumn.use" :=
    congrArg OracleError.fnname herror
  exact absurd hname (by decide)

theorem not_runs_use_blob_invalidRaw {lob : Option DpiLob} :
    ¬ Runs (decodeColumn.use env (.lob lob) .oracleTypeBlob) w (.error (invalidRaw hex)) w' := by
  intro hrun
  cases lob with
  | none => exact not_runs_lastError_invalidRaw hrun
  | some lob =>
      obtain ⟨size, w₁, -, hrun⟩ := runs_bind.mp hrun
      split at hrun
      · exact not_runs_lastError_invalidRaw hrun
      · obtain ⟨bytes, w₂, -, hrun⟩ := runs_bind.mp hrun
        cases hrun

theorem not_runs_use_clob_invalidRaw {lob : Option DpiLob} :
    ¬ Runs (decodeColumn.use env (.lob lob) .oracleTypeClob) w (.error (invalidRaw hex)) w' := by
  intro hrun
  cases lob with
  | none => exact not_runs_lastError_invalidRaw hrun
  | some lob =>
      obtain ⟨text, w₁, -, hrun⟩ := runs_bind.mp hrun
      cases hrun

/-- Only a RAW value is reported as invalid hexadecimal text. -/
theorem type_of_runs_value_invalidRaw {data : DpiData} {ty : OracleType}
    (hrun : Runs (decodeColumn.value env data ty) w (.error (invalidRaw hex)) w') :
    ty = .oracleTypeRaw := by
  cases ty with
  | oracleTypeRaw => rfl
  | oracleTypeBlob =>
      obtain ⟨ptr, w₁, w₂, hacquire, huse, -⟩ := runs_bracket.mp hrun
      obtain ⟨lob, w₃, -, hptr⟩ := runs_bind.mp hacquire
      cases hptr
      exact absurd huse not_runs_use_blob_invalidRaw
  | oracleTypeClob =>
      obtain ⟨ptr, w₁, w₂, hacquire, huse, -⟩ := runs_bracket.mp hrun
      obtain ⟨lob, w₃, -, hptr⟩ := runs_bind.mp hacquire
      cases hptr
      exact absurd huse not_runs_use_clob_invalidRaw
  | oracleTypeBoolean =>
      obtain ⟨value, w₁, -, hrun⟩ := runs_bind.mp hrun
      split at hrun <;> cases hrun
  | oracleTypeUnknown n => cases hrun
  | _ =>
      obtain ⟨value, w₁, -, hrun⟩ := runs_bind.mp hrun
      cases hrun

theorem not_runs_getColumnInfo_invalidRaw :
    ¬ Runs (getColumnInfo env stmt column) w (.error (invalidRaw hex)) w' := by
  intro hrun
  obtain ⟨ptr, w₁, w₂, -, huse, -⟩ := runs_bracket.mp hrun
  cases ptr with
  | none => exact not_runs_lastError_invalidRaw huse
  | some ptr =>
      obtain ⟨found, w₃, -, huse⟩ := runs_bind.mp huse
      cases huse

/-- The decoding of a value is that of a RAW whose text gets no block, or it gets all its blocks
and reports no invalid RAW. -/
theorem runs_value_cases {data : DpiData} {ty : OracleType}
    (hrun : Runs (decodeColumn.value env data ty) w r w') :
    HexRefused w w' ∧ r = rawOf env.nullString ∨
      HexGranted w w' ∧ ((data.value.asBytes.getD []).length ≤ 32767 →
        ∀ hex, r ≠ .error (invalidRaw hex)) := by
  by_cases hty : ty = .oracleTypeRaw
  · subst hty
    rcases runs_value_raw hrun with hrefused | ⟨hgranted, hvalue⟩
    · exact .inl hrefused
    · refine .inr ⟨hgranted, fun hlength hex heq => ?_⟩
      cases (hvalue hlength).symm.trans heq
  · refine .inr ⟨hexGranted_value hty hrun, ?_⟩
    rintro - hex rfl
    exact hty (type_of_runs_value_invalidRaw hrun)

/-- The decoder returns what Idris makes of a NULL, or it reports no invalid RAW. -/
theorem runs_decodeColumn_cases (hrun : Runs (decodeColumn env stmt column) w r w') :
    HexRefused w w' ∧ r = rawOf env.nullString ∨
      HexGranted w w' ∧ (RawCells env stmt column → ∀ hex, r ≠ .error (invalidRaw hex)) := by
  rw [decodeColumn_eq, runs_andThen] at hrun
  rcases hrun with ⟨err, hinfo, rfl⟩ | ⟨info, w₁, hinfo, hcell⟩
  · refine .inr ⟨hexGranted_getColumnInfo hinfo, ?_⟩
    intro _ hex heq
    cases heq
    exact not_runs_getColumnInfo_invalidRaw hinfo
  · have hfirst := hexGranted_getColumnInfo hinfo
    have hgrown := (preserves_getColumnInfo (follows_extends env) trivial _ _).of_runs hinfo
    obtain ⟨ptr, w₂, hptr, hvalue⟩ := runs_bind.mp hcell
    have hfirst' := hfirst.trans (hexGranted_oracleColumnValue hptr)
    have hgrown' := hgrown.trans _ _ _
      ((preserves_oracleColumnValue (follows_extends env) trivial _ _).of_runs hptr)
    cases ptr with
    | none =>
        have hlast : HexGranted w₂ w' := by
          cases hvalue
          exact hexGranted_silent rfl
        refine .inr ⟨hfirst'.trans hlast, ?_⟩
        rintro - hex rfl
        exact not_runs_lastError_invalidRaw hvalue
    | some data =>
        have hlength : RawCells env stmt column → (data.value.asBytes.getD []).length ≤ 32767 := by
          intro hcells
          rcases runs_oracleColumnValue env hptr with ⟨_, _, hnone, _⟩ | ⟨_, _, hcall, hsome, _⟩
          · cases hnone
          · cases hsome
            exact hcells _ _ _ hcall
        have hvalue : Runs (if oracleDataIsNull data ≠ 0 then pure (.ok .oracleNull)
            else decodeColumn.value env data info.oracletype) w₂ r w' := hvalue
        by_cases hnull : oracleDataIsNull data ≠ 0
        · rw [if_pos hnull] at hvalue
          cases hvalue
          refine .inr ⟨hfirst', fun _ hex heq => ?_⟩
          cases heq
        · rw [if_neg hnull] at hvalue
          rcases runs_value_cases hvalue with ⟨hrefused, hr⟩ | ⟨hgranted, hr⟩
          · exact .inl ⟨hrefused.after hgrown', hr⟩
          · exact .inr ⟨hfirst'.trans hgranted, fun hcells => hr (hlength hcells)⟩

theorem rawOf_invalid_iff {text : String} :
    (∃ hex, rawOf text = .error (invalidRaw hex)) ↔ hexDecode text = none := by
  cases hdecode : hexDecode text with
  | none => simp [rawOf, hdecode]
  | some bytes => simp [rawOf, hdecode]

theorem rawOf_eq_iff {text : String} {b : ByteString} :
    rawOf text = .ok (.oracleRaw b) ↔ hexDecode text = some b := by
  cases hdecode : hexDecode text with
  | none => simp [rawOf, hdecode]
  | some bytes => simp [rawOf, hdecode]

/-- A RAW cell is reported as invalid iff its text gets no block and the String that Idris makes
of a NULL is not hexadecimal. -/
theorem invalidRaw_iff (hcells : RawCells env stmt column)
    (hrun : Runs (decodeColumn env stmt column) w r w') :
    (∃ hex, r = .error (invalidRaw hex)) ↔
      HexRefused w w' ∧ hexDecode env.nullString = none := by
  rcases runs_decodeColumn_cases hrun with ⟨hrefused, rfl⟩ | ⟨hgranted, hr⟩
  · rw [rawOf_invalid_iff, and_iff_right hrefused]
  · refine iff_of_false ?_ fun h => hgranted.not_refused h.1
    rintro ⟨hex, hinvalid⟩
    exact hr hcells hex hinvalid

end Decode

section RoundTrip

variable {σ : Type} {env : Env σ} {H : HexAssignment} {insert : Statement} {name : String}
  {b : ByteString} {w w₁ w₂ w₃ : World σ} {r₁ : Outcome Unit}

/-- A RAW comes back as it was bound iff what is read for it is its text or reads like it, and a
RAW cell is reported as invalid iff what is read for it is neither. -/
theorem raw_preserved_iff (C : ResultSet env) (T : InsertColumn env (toRaw H) insert name)
    (hb : b ≠ []) (hlength : b.length ≤ 2000)
    (hinsert : Runs (bindAndExecute env insert ⟨name, .oracleRaw b⟩) w r₁ w₁)
    (hclean₁ : NoFailure w w₁) {ptr : OracleStmt} {column : Int32} {cell : DriverCell}
    {r : Outcome OracleValue}
    (hcell : (C.current ptr.stmt w₂.odpi)[(position column).toNat - 1]? = some cell)
    (hstored : CellOf cell (T.stored w₁.odpi))
    (hread : Runs (decodeColumn env ptr column) w₂ r w₃)
    (hclean : NoFailure w₂ w₃ ∨ HexRefused w₂ w₃) :
    ((r₁ = .ok () ∧ r = .ok (.oracleRaw b)) ↔
        (HexRefused w₂ w₃ → hexDecode env.nullString = some b)) ∧
      ∀ (τ : Type) (any : Env τ) (stmt : OracleStmt) (column : Int32) (w w' : World τ)
        (r : Outcome OracleValue), RawCells any stmt column →
        Runs (decodeColumn any stmt column) w r w' →
        ((∃ hex, r = .error (invalidRaw hex)) ↔
          HexRefused w w' ∧ hexDecode any.nullString = none) := by
  refine ⟨?_, fun τ any stmt column w w' r hcells hrun => invalidRaw_iff hcells hrun⟩
  obtain ⟨rfl, hbound, hcolumn⟩ := stored_raw T hb hlength hinsert hclean₁
  rw [and_iff_right rfl]
  rcases hclean with hclean | hrefused
  · rw [hcolumn] at hstored
    have hr := hstored.read C trivial hcell hread hclean
    exact iff_of_true hr fun hrefused => absurd hrefused hclean.hexGranted.not_refused
  · rw [imp_iff_right hrefused]
    rcases runs_decodeColumn_cases hread with ⟨-, rfl⟩ | ⟨hgranted, -⟩
    · exact rawOf_eq_iff
    · exact absurd hrefused hgranted.not_refused

end RoundTrip

/-- A session with a table of one RAW column and an allocator that grants blocks of some kinds. -/
def rawEnv (grants : BlockKind → Bool) : Env (Table .oracleTypeRaw) :=
  tableEnv (tableSql "content") rawLayout (toRaw strictHex) grants

def grantsAll : BlockKind → Bool := fun _ => true

/-- No block for the text of a RAW. -/
def refusesHex : BlockKind → Bool := (· ≠ .bytesHex)

/-- The session inserts a RAW. -/
def insertRaw (grants : BlockKind → Bool) (b : ByteString) :
    Eff (World (Table .oracleTypeRaw)) (Outcome Unit) :=
  bindAndExecute (rawEnv grants) tableInto ⟨"content", .oracleRaw b⟩

/-- The session reads it back. -/
def readRaw (grants : BlockKind → Bool) :
    Eff (World (Table .oracleTypeRaw)) (Outcome OracleValue) :=
  decodeColumn (rawEnv grants) tableFrom 0

/-- What the INSERT of a RAW leaves. -/
def rawWritten (grants : BlockKind → Bool) (b : ByteString) : World (Table .oracleTypeRaw) :=
  (World.initial .empty).after (insertRaw grants b)

/-- What reading it back leaves. -/
def rawRead (grants : BlockKind → Bool) (b : ByteString) : World (Table .oracleTypeRaw) :=
  (rawWritten grants b).after (readRaw grants)

theorem runs_insertRaw_zeroHigh :
    Runs (insertRaw grantsAll [0x00, 0xFF]) (World.initial .empty) (.ok ())
      (rawWritten grantsAll [0x00, 0xFF]) := rfl

theorem runs_readRaw_zeroHigh :
    Runs (readRaw grantsAll) (rawWritten grantsAll [0x00, 0xFF]) (.ok (.oracleRaw [0x00, 0xFF]))
      (rawRead grantsAll [0x00, 0xFF]) := rfl

theorem noFailure_insertRaw_zeroHigh :
    NoFailure (World.initial .empty) (rawWritten grantsAll [0x00, 0xFF]) :=
  ⟨(rawWritten grantsAll [0x00, 0xFF]).log, rfl, by decide⟩

theorem noFailure_readRaw_zeroHigh :
    NoFailure (rawWritten grantsAll [0x00, 0xFF]) (rawRead grantsAll [0x00, 0xFF]) :=
  ⟨(rawRead grantsAll [0x00, 0xFF]).log.drop (rawWritten grantsAll [0x00, 0xFF]).log.length,
    rfl, by decide⟩

theorem cell_zeroHigh :
    ∃ cell, (rawWritten grantsAll [0x00, 0xFF]).odpi.cell rawLayout = some cell := ⟨_, rfl⟩

/-- A RAW with a zero byte and a high byte. -/
theorem raw_preserved_zeroHigh :
    ((.ok () : Outcome Unit) = .ok () ∧
        (.ok (.oracleRaw [0x00, 0xFF]) : Outcome OracleValue) = .ok (.oracleRaw [0x00, 0xFF])) ↔
      (HexRefused (rawWritten grantsAll [0x00, 0xFF]) (rawRead grantsAll [0x00, 0xFF]) →
        hexDecode (rawEnv grantsAll).nullString = some [0x00, 0xFF]) := by
  obtain ⟨cell, hcell⟩ := cell_zeroHigh
  exact (raw_preserved_iff (tableRow fun _ => rfl)
    (tableInsert rawLayout (toRaw strictHex) grantsAll tableInto "content" tableFrom.stmt)
    (by decide) (by decide) runs_insertRaw_zeroHigh noFailure_insertRaw_zeroHigh
    (current_tableRow (fun _ => rfl) rfl hcell) (cellOf_table hcell) runs_readRaw_zeroHigh
    (.inl noFailure_readRaw_zeroHigh)).1

/-- A RAW whose text gets no block comes back empty. -/
theorem raw_refused_not_preserved :
    Runs (insertRaw refusesHex [0xFF]) (World.initial .empty) (.ok ())
        (rawWritten refusesHex [0xFF]) ∧
      Runs (readRaw refusesHex) (rawWritten refusesHex [0xFF]) (.ok (.oracleRaw []))
        (rawRead refusesHex [0xFF]) ∧
      ¬ ∃ w, Runs (readRaw refusesHex) (rawWritten refusesHex [0xFF])
        (.ok (.oracleRaw [0xFF])) w := by
  have hread : Runs (readRaw refusesHex) (rawWritten refusesHex [0xFF]) (.ok (.oracleRaw []))
      (rawRead refusesHex [0xFF]) := rfl
  refine ⟨rfl, hread, ?_⟩
  rintro ⟨w, hsame⟩
  have hvalue := OracleValue.oracleRaw.inj (Except.ok.inj (hread.unique hsame).1)
  exact absurd hvalue (by decide)

end IdrisOracle
