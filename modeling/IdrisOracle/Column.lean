import IdrisOracle.Binary64
import IdrisOracle.Decode

/-! What a column stores, how ODPI-C hands it over and what the decoder makes of it. -/

namespace IdrisOracle

open Effect

/-- What a column of a type stores when it is not NULL. -/
@[reducible] def Content : OracleType → Type
  | .oracleTypeVarchar | .oracleTypeChar | .oracleTypeNVarchar | .oracleTypeNChar
  | .oracleTypeClob => String
  | .oracleTypeRaw => { bytes : List UInt8 // bytes.length ≤ 32767 }
  | .oracleTypeBlob => { bytes : List UInt8 // bytes.length < 2 ^ 47 }
  | .oracleTypeNumber | .oracleTypeBinaryDouble => Float
  | .oracleTypeBinaryFloat => Float32
  | .oracleTypeDate | .oracleTypeTimestamp | .oracleTypeTimestampTZ => DpiTimestamp
  | .oracleTypeIntervalYM => DpiIntervalYM
  | .oracleTypeIntervalDS => DpiIntervalDS
  | .oracleTypeBoolean => Bool
  | .oracleTypeUnknown _ => Empty

def OracleDate.ofDpi (ts : DpiTimestamp) : OracleDate where
  year := ts.year.toInt32
  month := ts.month.toUInt32.toInt32
  day := ts.day.toUInt32.toInt32
  hour := ts.hour.toUInt32.toInt32
  minute := ts.minute.toUInt32.toInt32
  second := ts.second.toUInt32.toInt32

def OracleTimestamp.ofDpi (ts : DpiTimestamp) : OracleTimestamp where
  year := ts.year.toInt32
  month := ts.month.toUInt32.toInt32
  day := ts.day.toUInt32.toInt32
  hour := ts.hour.toUInt32.toInt32
  minute := ts.minute.toUInt32.toInt32
  second := ts.second.toUInt32.toInt32
  nanosecond := ts.fsecond.toInt32

def OracleTimestampTZ.ofDpi (ts : DpiTimestamp) : OracleTimestampTZ where
  year := ts.year.toInt32
  month := ts.month.toUInt32.toInt32
  day := ts.day.toUInt32.toInt32
  hour := ts.hour.toUInt32.toInt32
  minute := ts.minute.toUInt32.toInt32
  second := ts.second.toUInt32.toInt32
  nanosecond := ts.fsecond.toInt32
  tzHourOffset := ts.tzHourOffset.toInt32
  tzMinuteOffset := ts.tzMinuteOffset.toInt32

/-- The value that carries the content of a column. -/
def Content.value : (ty : OracleType) → Content ty → OracleValue
  | .oracleTypeVarchar, text | .oracleTypeChar, text | .oracleTypeNVarchar, text
  | .oracleTypeNChar, text => .oracleString text
  | .oracleTypeClob, text => .oracleClob text
  | .oracleTypeRaw, bytes => .oracleRaw bytes
  | .oracleTypeBlob, bytes => .oracleBlob bytes
  | .oracleTypeNumber, number => .oracleNumber number
  | .oracleTypeBinaryDouble, number => .oracleBinaryDouble number
  | .oracleTypeBinaryFloat, number => .oracleBinaryFloat number.toFloat
  | .oracleTypeDate, ts => .oracleDate (.ofDpi ts)
  | .oracleTypeTimestamp, ts => .oracleTimestamp (.ofDpi ts)
  | .oracleTypeTimestampTZ, ts => .oracleTimestampTZ (.ofDpi ts)
  | .oracleTypeIntervalYM, iv => .oracleIntervalYM ⟨iv.years, iv.months⟩
  | .oracleTypeIntervalDS, iv =>
      .oracleIntervalDS ⟨iv.days, iv.hours, iv.minutes, iv.seconds, iv.fseconds⟩
  | .oracleTypeBoolean, value => .oracleBool value

/-- The content survives the passage through C strings and the decoder. -/
def Content.Plain : (ty : OracleType) → Content ty → Prop
  | .oracleTypeVarchar, text | .oracleTypeChar, text | .oracleTypeNVarchar, text
  | .oracleTypeNChar, text | .oracleTypeClob, text => '\x00' ∉ text.toList
  | .oracleTypeBlob, bytes => bytes.1 = []
  | _, _ => True

/-- The member of the value union that holds a native type. -/
def DpiNativeTypeNum.member : DpiNativeTypeNum → Member
  | .int64 => .asInt64
  | .uint64 => .asUint64
  | .float => .asFloat
  | .double => .asDouble
  | .bytes => .asBytes
  | .timestamp => .asTimestamp
  | .intervalDS => .asIntervalDS
  | .intervalYM => .asIntervalYM
  | .lob => .asLOB
  | .object => .asObject
  | .stmt => .asStmt
  | .boolean => .asBoolean
  | .rowid => .asRowid
  | .json => .asJson
  | .jsonObject => .asJsonObject
  | .jsonArray => .asJsonArray
  | .vector => .asVector

/-- ODPI-C has written the content to the member of the native type. -/
def Fills : DpiNativeTypeNum → (ty : OracleType) → Content ty → DpiDataBuffer → Prop
  | .int64, .oracleTypeNumber, number, value =>
      Binary64.ofInt value.asInt64.toInt = number
  | .double, .oracleTypeNumber, number, value
  | .double, .oracleTypeBinaryDouble, number, value => value.asDouble = number
  | .float, .oracleTypeBinaryFloat, number, value => value.asFloat = number
  | .bytes, .oracleTypeVarchar, text, value | .bytes, .oracleTypeChar, text, value
  | .bytes, .oracleTypeNVarchar, text, value | .bytes, .oracleTypeNChar, text, value =>
      value.asBytes = some (CString.encode text.toList)
  | .bytes, .oracleTypeRaw, bytes, value => value.asBytes = some bytes.1
  | .timestamp, .oracleTypeDate, ts, value | .timestamp, .oracleTypeTimestamp, ts, value
  | .timestamp, .oracleTypeTimestampTZ, ts, value => value.asTimestamp = ts
  | .intervalYM, .oracleTypeIntervalYM, iv, value => value.asIntervalYM = iv
  | .intervalDS, .oracleTypeIntervalDS, iv, value => value.asIntervalDS = iv
  | .boolean, .oracleTypeBoolean, b, value => value.asBoolean = if b then 1 else 0
  | .lob, .oracleTypeClob, _, value | .lob, .oracleTypeBlob, _, value => value.asLOB ≠ none
  | _, _, _, _ => False

section Laws

variable {σ : Type}

/-- In every ready state the request succeeds with one reply and leaves a ready state. -/
def Answers (env : Env σ) (ready : σ → Prop) (req : Req) (reply : req.Resp) : Prop :=
  ∀ s, ready s → (env.call req s).1 = .ok reply ∧ ready (env.call req s).2

/-- The LOB functions deliver the content behind the handle. -/
def ReadsLob (env : Env σ) (ready : σ → Prop) (lob : DpiLob) :
    (ty : OracleType) → Content ty → Prop
  | .oracleTypeBlob, bytes =>
      let size := UInt64.ofNat bytes.1.length
      Answers env ready (.lobGetSize lob) size ∧
        Answers env ready (.lobReadBytes lob 1 size size) bytes.1
  | .oracleTypeClob, text =>
      ∃ chars size, Answers env ready (.lobGetSize lob) chars ∧
        Answers env ready (.lobGetBufferSize lob chars) size ∧
        Answers env ready (.lobReadBytes lob 1 chars size) (CString.encode text.toList)
  | _, _ => True

/-- A column with what it stores in the current row. -/
structure Cell where
  info : DpiQueryInfo
  type : OracleType
  type_eq : fromOracleTypeNum info.typeInfo.oracleTypeNum = type
  content : Content type

/-- In its ready states ODPI-C hands over the cell as its native type. -/
structure ColumnEnv (env : Env σ) (stmt : OracleStmt) (column : Int32) (cell : Cell) where
  ready : σ → Prop
  malloc_ok : ∀ kind size s, ready s →
    (env.malloc kind size s).1 = true ∧ ready (env.malloc kind size s).2
  native : DpiNativeTypeNum
  native_eq : populateTypeInfo cell.info.typeInfo = some native
  data : DpiData
  notNull : data.isNull = 0
  fills : Fills native cell.type cell.content data.value
  readsLob : ∀ lob, data.value.asLOB = some lob → ReadsLob env ready lob cell.type cell.content
  queryInfo : Answers env ready (.stmtGetQueryInfo stmt.stmt (position column)) cell.info
  queryValue : Answers env ready (.stmtGetQueryValue stmt.stmt (position column)) (native, data)

end Laws

section Reading

/-- The members of the value union that were read, in order. -/
def memberReads (log : List Event) : List Member :=
  log.filterMap fun event =>
    match event with
    | .read member => some member
    | _ => none

@[simp] theorem memberReads_append (log₁ log₂ : List Event) :
    memberReads (log₁ ++ log₂) = memberReads log₁ ++ memberReads log₂ :=
  List.filterMap_append

variable {σ : Type} {env : Env σ} {stmt : OracleStmt} {column : Int32} {cell : Cell}

/-- ODPI-C is ready and the members `t` have been read. -/
def ColumnEnv.Reading (C : ColumnEnv env stmt column cell) (t : List Member) (w : World σ) : Prop :=
  C.ready w.odpi ∧ memberReads w.log = t

variable (C : ColumnEnv env stmt column cell) (t : List Member)

theorem ensures_odpi {req : Req} {reply : req.Resp} (h : Answers env C.ready req reply) :
    Ensures (C.Reading t) (odpi env req) fun r w => r = .ok reply ∧ C.Reading t w := by
  rintro w ⟨hready, hreads⟩
  obtain ⟨hcall, hready'⟩ := h w.odpi hready
  exact ⟨_, _, rfl, hcall, hready', by simpa [memberReads] using hreads⟩

theorem ensures_malloc (kind : BlockKind) (size : Nat) :
    Ensures (C.Reading t) (malloc env kind size) fun r w =>
      (∃ block, r = some block) ∧ C.Reading t w := by
  rintro w ⟨hready, hreads⟩
  obtain ⟨hmalloc, hready'⟩ := C.malloc_ok kind size w.odpi hready
  refine ⟨some w.nextBlock, w.allocated env kind size, by simp [Runs, hmalloc], ⟨_, rfl⟩,
    hready', ?_⟩
  simpa [memberReads] using hreads

theorem ensures_free (block : Nat) :
    Ensures (C.Reading t) (free block) fun _ w => C.Reading t w := by
  rintro w ⟨hready, hreads⟩
  exact ⟨_, _, rfl, hready, by simpa [memberReads] using hreads⟩

theorem ensures_readMember {α : Type} (member : Member) (value : α) :
    Ensures (C.Reading t) (readMember member value) fun a w =>
      a = value ∧ C.Reading (t ++ [member]) w := by
  rintro w ⟨hready, hreads⟩
  exact ⟨_, _, rfl, rfl, hready, by simp [memberReads, ← hreads]⟩

theorem ensures_oracleQueryInfo :
    Ensures (C.Reading t) (oracleQueryInfo env stmt column) fun ptr w =>
      (∃ block, ptr = some (block, cell.info)) ∧ C.Reading t w := by
  refine (ensures_malloc C t _ _).bind_of ?_
  rintro _ ⟨block, rfl⟩
  refine (ensures_odpi C t C.queryInfo).bind_of ?_
  rintro _ rfl
  exact Ensures.pure fun w hw => ⟨⟨block, rfl⟩, hw⟩

theorem ensures_oracleQueryInfoName (info : DpiQueryInfo) :
    Ensures (C.Reading t) (oracleQueryInfoName env info) fun ptr w =>
      (∃ block, ptr = some (block, info.name)) ∧ C.Reading t w := by
  refine (ensures_malloc C t _ _).bind_of ?_
  rintro _ ⟨block, rfl⟩
  exact Ensures.pure fun w hw => ⟨⟨block, rfl⟩, hw⟩

theorem ensures_getColumnInfo :
    Ensures (C.Reading t) (getColumnInfo env stmt column) fun r w =>
      (∃ info, r = .ok info ∧ info.oracletype = cell.type) ∧ C.Reading t w := by
  refine Ensures.bracket (ensures_oracleQueryInfo C t)
    (U := fun ptr r w => (∃ block, ptr = some (block, cell.info)) ∧
      (∃ info, r = .ok info ∧ info.oracletype = cell.type) ∧ C.Reading t w) ?_ ?_
  · rintro ptr w ⟨⟨block, rfl⟩, hw⟩
    obtain ⟨name, w₁, hname, -, hw₁⟩ := ensures_oracleQueryInfoName C t cell.info w hw
    exact ⟨_, w₁, runs_bind.mpr ⟨_, w₁, runs_bind.mpr ⟨name, w₁, hname, rfl⟩, rfl⟩, ⟨block, rfl⟩,
      ⟨_, rfl, cell.type_eq⟩, hw₁⟩
  · rintro ptr r w ⟨⟨block, rfl⟩, hr, hw⟩
    obtain ⟨u, w₁, hfree, hw₁⟩ := ensures_free C t block w hw
    exact ⟨u, w₁, hfree, hr, hw₁⟩

theorem ensures_oracleColumnValue :
    Ensures (C.Reading t) (oracleColumnValue env stmt column) fun r w =>
      r = some C.data ∧ C.Reading t w := by
  refine (ensures_odpi C t C.queryValue).bind_of ?_
  rintro _ rfl
  exact Ensures.pure fun w hw => ⟨rfl, hw⟩

/-- Decoding the column comes down to decoding the value ODPI-C hands over. -/
theorem ensures_decodeColumn {Q : Outcome OracleValue → World σ → Prop}
    (hvalue : Ensures (C.Reading t) (decodeColumn.value env C.data cell.type) Q) :
    Ensures (C.Reading t) (decodeColumn env stmt column) Q := by
  refine (ensures_getColumnInfo C t).bind_of ?_
  rintro _ ⟨info, rfl, hty⟩
  refine (ensures_oracleColumnValue C t).bind_of ?_
  rintro _ rfl
  rw [hty]
  simpa [oracleDataIsNull, C.notNull] using hvalue

end Reading

section Values

variable {σ : Type} {env : Env σ} {stmt : OracleStmt} {column : Int32} {cell : Cell}
variable (C : ColumnEnv env stmt column cell) (t : List Member)

theorem ensures_oracleDataString {bytes : List UInt8} (data : DpiData)
    (h : data.value.asBytes = some bytes) :
    Ensures (C.Reading t) (oracleDataString env data) fun ptr w =>
      fromC env ptr = CString.read bytes ∧ C.Reading (t ++ [.asBytes]) w := by
  refine (ensures_readMember C t _ _).bind_of ?_
  rintro _ rfl
  rw [h]
  refine (ensures_malloc C _ _ _).bind_of ?_
  rintro _ ⟨block, rfl⟩
  exact Ensures.pure fun w hw => ⟨rfl, hw⟩

theorem ensures_oracleDataBytesHex {bytes : List UInt8} (data : DpiData)
    (h : data.value.asBytes = some bytes) (hlength : bytes.length * 2 ≤ 2 ^ 32) :
    Ensures (C.Reading t) (oracleDataBytesHex env data) fun ptr w =>
      fromC env ptr = hexEncode bytes ∧ C.Reading (t ++ [.asBytes]) w := by
  refine (ensures_readMember C t _ _).bind_of ?_
  rintro _ rfl
  rw [h]
  refine (ensures_malloc C _ _ _).bind_of ?_
  rintro _ ⟨block, rfl⟩
  exact Ensures.pure fun w hw => ⟨read_hexBlock _ _ hlength, hw⟩

theorem ensures_oracleLobSize {lob : DpiLob} {size : UInt64}
    (h : Answers env C.ready (.lobGetSize lob) size) :
    Ensures (C.Reading t) (oracleLobSize env (some lob)) fun n w =>
      n = size.toInt64 ∧ C.Reading t w := by
  refine (ensures_odpi C t h).bind_of ?_
  rintro _ rfl
  exact Ensures.pure fun w hw => ⟨rfl, hw⟩

theorem ensures_oracleLobRead {lob : DpiLob} {size : UInt64} {bytes : List UInt8}
    (h : Answers env C.ready (.lobReadBytes lob 1 size size) bytes)
    (hlength : bytes.length * 2 ≤ 2 ^ 64) :
    Ensures (C.Reading t) (oracleLobRead env (some lob) 1 size.toInt64) fun ptr w =>
      fromC env ptr = hexEncode bytes ∧ C.Reading t w := by
  refine (ensures_malloc C t _ _).bind_of ?_
  rintro _ ⟨buffer, rfl⟩
  refine (ensures_odpi C t h).bind_of ?_
  rintro _ rfl
  refine (ensures_malloc C t _ _).bind_of ?_
  rintro _ ⟨hex, rfl⟩
  refine (ensures_free C t buffer).bind fun _ => ?_
  exact Ensures.pure fun w hw => ⟨read_hexBlock _ _ hlength, hw⟩

theorem ensures_oracleClobRead {lob : DpiLob} {chars size : UInt64} {text : List UInt8}
    (hchars : Answers env C.ready (.lobGetSize lob) chars)
    (hsize : Answers env C.ready (.lobGetBufferSize lob chars) size)
    (htext : Answers env C.ready (.lobReadBytes lob 1 chars size) text) :
    Ensures (C.Reading t) (oracleClobRead env (some lob)) fun ptr w =>
      fromC env ptr = CString.read text ∧ C.Reading t w := by
  refine (ensures_odpi C t hchars).bind_of ?_
  rintro _ rfl
  refine (ensures_odpi C t hsize).bind_of ?_
  rintro _ rfl
  refine (ensures_malloc C t _ _).bind_of ?_
  rintro _ ⟨buffer, rfl⟩
  refine (ensures_odpi C t htext).bind_of ?_
  rintro _ rfl
  exact Ensures.pure fun w hw => ⟨rfl, hw⟩

/-- The LOB is released after it has been read. -/
theorem ensures_lobBracket {lob : DpiLob} {data : DpiData} {ty : OracleType}
    {r : Outcome OracleValue} (hty : ty = .oracleTypeBlob ∨ ty = .oracleTypeClob)
    (hlob : data.value.asLOB = some lob)
    (huse : Ensures (C.Reading (t ++ [.asLOB])) (decodeColumn.use env (.lob (some lob)) ty)
      fun r' w => r' = r ∧ C.Reading (t ++ [.asLOB]) w) :
    Ensures (C.Reading t) (decodeColumn.value env data ty) fun r' w =>
      r' = r ∧ memberReads w.log = t ++ [.asLOB] := by
  have hvalue : decodeColumn.value env data ty =
      decodeColumn.withDataPtrAndOracleType env data ty := by
    rcases hty with rfl | rfl <;> rfl
  have hacquire : Ensures (C.Reading t) (decodeColumn.acquire data ty) fun ptr w =>
      ptr = .lob (some lob) ∧ C.Reading (t ++ [.asLOB]) w := by
    rcases hty with rfl | rfl <;>
      exact (ensures_readMember C t _ _).bind_of fun a ha =>
        Ensures.pure fun w hw => ⟨by rw [ha, hlob], hw⟩
  rw [hvalue]
  refine Ensures.bracket hacquire
    (U := fun ptr r' w => ptr = .lob (some lob) ∧ r' = r ∧ memberReads w.log = t ++ [.asLOB]) ?_ ?_
  · rintro ptr w ⟨rfl, hw⟩
    obtain ⟨r', w₁, hrun, hr, -, hreads⟩ := huse w hw
    exact ⟨r', w₁, hrun, rfl, hr, hreads⟩
  · rintro ptr r' w ⟨rfl, hr, hreads⟩
    have hreleased : memberReads (w.released env (.lob lob)).log = t ++ [.asLOB] := by
      simpa [memberReads] using hreads
    rcases hty with rfl | rfl <;> exact ⟨(), _, rfl, hr, hreleased⟩

theorem size_nonneg {n : Nat} (h : n < 2 ^ 47) : ¬ (UInt64.ofNat n).toInt64 < 0 := by
  have heq : (UInt64.ofNat n).toInt64 = Int64.ofNat n := by simp
  have hint : (Int64.ofNat n).toInt = n := Int64.toInt_ofNat_of_lt (by omega)
  rw [heq, Int64.lt_iff_toInt_lt, hint]
  simp

/-- A BLOB comes back as the ASCII codes of its hexadecimal digits. -/
theorem ensures_blob {bytes : { bytes : List UInt8 // bytes.length < 2 ^ 47 }} {data : DpiData}
    (hfill : Fills .lob .oracleTypeBlob bytes data.value)
    (hlob : ∀ lob, data.value.asLOB = some lob → ReadsLob env C.ready lob .oracleTypeBlob bytes) :
    Ensures (C.Reading t) (decodeColumn.value env data .oracleTypeBlob) fun r w =>
      r = .ok (.oracleBlob (hexBytes bytes)) ∧ memberReads w.log = t ++ [.asLOB] := by
  obtain ⟨lob, hhandle⟩ := Option.ne_none_iff_exists'.mp hfill
  obtain ⟨hsize, hread⟩ := hlob lob hhandle
  obtain ⟨bytes, hlength⟩ := bytes
  refine ensures_lobBracket C t (.inl rfl) hhandle ?_
  refine (ensures_oracleLobSize C _ hsize).bind_of ?_
  rintro _ rfl
  rw [if_neg (size_nonneg hlength)]
  have hwidth : bytes.length * 2 ≤ 2 ^ 64 := by omega
  refine (ensures_oracleLobRead C _ hread hwidth).bind_of ?_
  intro ptr hptr
  exact Ensures.pure fun w hw => ⟨by rw [hptr, encode_hexEncode], hw⟩

theorem ensures_clob {text : String} {data : DpiData}
    (hfill : Fills .lob .oracleTypeClob text data.value)
    (hlob : ∀ lob, data.value.asLOB = some lob → ReadsLob env C.ready lob .oracleTypeClob text) :
    Ensures (C.Reading t) (decodeColumn.value env data .oracleTypeClob) fun r w =>
      r = .ok (.oracleClob (CString.read (CString.encode text.toList))) ∧
        memberReads w.log = t ++ [.asLOB] := by
  obtain ⟨lob, hhandle⟩ := Option.ne_none_iff_exists'.mp hfill
  obtain ⟨chars, size, hchars, hsize, htext⟩ := hlob lob hhandle
  refine ensures_lobBracket C t (.inr rfl) hhandle ?_
  refine (ensures_oracleClobRead C _ hchars hsize htext).bind_of ?_
  intro ptr hptr
  exact Ensures.pure fun w hw => ⟨by rw [hptr], hw⟩

theorem ensures_raw {bytes : { bytes : List UInt8 // bytes.length ≤ 32767 }} {data : DpiData}
    (hfill : Fills .bytes .oracleTypeRaw bytes data.value) :
    Ensures (C.Reading t) (decodeColumn.value env data .oracleTypeRaw) fun r w =>
      r = .ok (.oracleRaw bytes) ∧ memberReads w.log = t ++ [.asBytes] := by
  have hlength := bytes.2
  refine Ensures.bracket (A := fun ptr w => ptr = .data data ∧ C.Reading t w)
    (U := fun _ r w => r = .ok (.oracleRaw bytes) ∧ memberReads w.log = t ++ [.asBytes])
    (Ensures.pure fun w hw => ⟨rfl, hw⟩) ?_ fun _ _ => Ensures.pure fun w hw => hw
  rintro ptr w ⟨rfl, hw⟩
  refine (ensures_oracleDataBytesHex C t data hfill (by omega)).bind_of ?_ w hw
  intro hex hhex
  simp only [hhex, hexDecode_hexEncode]
  exact Ensures.pure fun w hw => ⟨rfl, hw.2⟩

theorem ensures_text {ty : OracleType} {text : String} {data : DpiData}
    (hty : decodeColumn.value env data ty = do
      let text ← oracleDataString env data
      return .ok (.oracleString (fromC env text)))
    (hfill : data.value.asBytes = some (CString.encode text.toList)) :
    Ensures (C.Reading t) (decodeColumn.value env data ty) fun r w =>
      r = .ok (.oracleString (CString.read (CString.encode text.toList))) ∧
        memberReads w.log = t ++ [.asBytes] := by
  rw [hty]
  refine (ensures_oracleDataString C t data hfill).bind_of ?_
  intro ptr hptr
  exact Ensures.pure fun w hw => ⟨by rw [hptr], hw.2⟩

theorem read_encode_eq {text : String} :
    CString.read (CString.encode text.toList) = text ↔ '\x00' ∉ text.toList := by
  rw [CString.read_encode, ← CString.visible_eq_self]
  constructor
  · intro h
    simpa using congrArg String.toList h
  · intro h
    rw [h, String.ofList_toList]

theorem hexBytes_eq_iff {bytes : List UInt8} : hexBytes bytes = bytes ↔ bytes = [] := by
  constructor
  · intro h
    have hlength := congrArg List.length h
    rw [length_hexBytes] at hlength
    exact List.length_eq_zero_iff.mp (by omega)
  · rintro rfl
    rfl

/-- A value of the default native type is read from its member, and is right if it is plain. -/
theorem ensures_value {ty : OracleType} {content : Content ty} {data : DpiData}
    {native : DpiNativeTypeNum} (hnative : defaultNativeType ty = some native)
    (hfill : Fills native ty content data.value)
    (hlob : ∀ lob, data.value.asLOB = some lob → ReadsLob env C.ready lob ty content) :
    Ensures (C.Reading t) (decodeColumn.value env data ty) fun r w =>
      (r = .ok (content.value ty) ↔ content.Plain ty) ∧
        memberReads w.log = t ++ [native.member] := by
  have hexact : ∀ {member : Member} {α : Type} {a : α} {f : α → OracleValue},
      decodeColumn.value env data ty = (do return .ok (f (← readMember member a))) →
      f a = content.value ty → content.Plain ty → member = native.member →
      Ensures (C.Reading t) (decodeColumn.value env data ty) fun r w =>
        (r = .ok (content.value ty) ↔ content.Plain ty) ∧
          memberReads w.log = t ++ [native.member] := by
    rintro member α a f heq hvalue hplain rfl
    rw [heq]
    refine (ensures_readMember C t _ _).bind_of ?_
    rintro _ rfl
    exact Ensures.pure fun w hw => ⟨by simp [hvalue, hplain], hw.2⟩
  cases ty with
  | oracleTypeBlob =>
      cases hnative
      refine (ensures_blob C t hfill hlob).imp ?_
      rintro r w ⟨rfl, hreads⟩
      exact ⟨by simpa [Content.value, Content.Plain] using hexBytes_eq_iff, hreads⟩
  | oracleTypeClob =>
      cases hnative
      refine (ensures_clob C t hfill hlob).imp ?_
      rintro r w ⟨rfl, hreads⟩
      exact ⟨by simpa [Content.value, Content.Plain] using read_encode_eq, hreads⟩
  | oracleTypeRaw =>
      cases hnative
      refine (ensures_raw C t hfill).imp ?_
      rintro r w ⟨rfl, hreads⟩
      exact ⟨by simp [Content.value, Content.Plain], hreads⟩
  | oracleTypeVarchar | oracleTypeChar | oracleTypeNVarchar | oracleTypeNChar =>
      cases hnative
      refine (ensures_text C t rfl hfill).imp ?_
      rintro r w ⟨rfl, hreads⟩
      exact ⟨by simpa [Content.value, Content.Plain] using read_encode_eq, hreads⟩
  | oracleTypeBoolean =>
      cases hnative
      refine (ensures_readMember C t _ _).bind_of ?_
      rintro _ rfl
      rw [show data.value.asBoolean = if content then 1 else 0 from hfill]
      cases content <;>
        exact Ensures.pure fun w hw => ⟨by simp [Content.value, Content.Plain], hw.2⟩
  | oracleTypeNumber | oracleTypeBinaryDouble =>
      cases hnative
      obtain rfl : data.value.asDouble = content := hfill
      exact hexact rfl rfl trivial rfl
  | oracleTypeBinaryFloat =>
      cases hnative
      obtain rfl : data.value.asFloat = content := hfill
      exact hexact rfl rfl trivial rfl
  | oracleTypeDate | oracleTypeTimestamp | oracleTypeTimestampTZ =>
      cases hnative
      obtain rfl : data.value.asTimestamp = content := hfill
      exact hexact rfl rfl trivial rfl
  | oracleTypeIntervalYM =>
      cases hnative
      obtain rfl : data.value.asIntervalYM = content := hfill
      exact hexact rfl rfl trivial rfl
  | oracleTypeIntervalDS =>
      cases hnative
      obtain rfl : data.value.asIntervalDS = content := hfill
      exact hexact rfl rfl trivial rfl
  | oracleTypeUnknown n => cases content

/-- A NUMBER is read as a double, whatever ODPI-C filled. -/
theorem ensures_number (data : DpiData) :
    Ensures (C.Reading t) (decodeColumn.value env data .oracleTypeNumber) fun _ w =>
      memberReads w.log = t ++ [.asDouble] :=
  (ensures_readMember C t _ _).bind_of fun _ _ => Ensures.pure fun _ hw => hw.2

theorem not_integerNumber (hty : cell.type ≠ .oracleTypeNumber) :
    ¬ IntegerNumber cell.info.typeInfo := by
  intro hint
  rw [← cell.type_eq, hint.1] at hty
  exact hty rfl

/-- A cell that is no integer NUMBER is read from the member ODPI-C filled. -/
theorem runs_decodeColumn {w : World σ} (hready : C.ready w.odpi)
    (hint : ¬ IntegerNumber cell.info.typeInfo) :
    ∃ r w', Runs (decodeColumn env stmt column) w r w' ∧
      (r = .ok (cell.content.value cell.type) ↔ cell.content.Plain cell.type) ∧
      memberReads w'.log = memberReads w.log ++ [C.native.member] := by
  have hdefault : defaultNativeType cell.type = some C.native := by
    simpa [populateTypeInfo, hint, cell.type_eq] using C.native_eq
  exact ensures_decodeColumn C _ (ensures_value C _ hdefault C.fills C.readsLob) w ⟨hready, rfl⟩

/-- The decoder reads the member ODPI-C filled and returns what the cell stores. -/
def Faithful (C : ColumnEnv env stmt column cell) (w : World σ) : Prop :=
  ∃ w', Runs (decodeColumn env stmt column) w (.ok (cell.content.value cell.type)) w' ∧
    memberReads w'.log = memberReads w.log ++ [C.native.member]

/-- The stored value comes back iff the column is no integer NUMBER and the content is plain. -/
theorem decodeColumn_faithful_iff {w : World σ} (hready : C.ready w.odpi) :
    Faithful C w ↔
      ¬ IntegerNumber cell.info.typeInfo ∧ cell.content.Plain cell.type := by
  by_cases hint : IntegerNumber cell.info.typeInfo
  · have htype : cell.type = .oracleTypeNumber := by
      rw [← cell.type_eq, hint.1]
      rfl
    have hint64 : C.native = .int64 := by
      simpa [populateTypeInfo, hint, eq_comm] using C.native_eq
    have hnumber := ensures_number C (memberReads w.log) C.data
    rw [← htype] at hnumber
    refine iff_of_false ?_ fun h => h.1 hint
    rintro ⟨w', hrun, hmember⟩
    have hdouble := (ensures_decodeColumn C _ hnumber).of_runs ⟨hready, rfl⟩ hrun
    rw [hmember, hint64] at hdouble
    simp [DpiNativeTypeNum.member] at hdouble
  · obtain ⟨r, w', hrun, hvalue, hmember⟩ := runs_decodeColumn C hready hint
    constructor
    · rintro ⟨w₁, hrun₁, -⟩
      obtain ⟨rfl, -⟩ := hrun.unique hrun₁
      exact ⟨hint, hvalue.mp rfl⟩
    · rintro ⟨-, hplain⟩
      obtain rfl := hvalue.mpr hplain
      exact ⟨w', hrun, hmember⟩

end Values

/-- ODPI-C with one fetched value. -/
def fetchedEnv (info : DpiQueryInfo) (native : DpiNativeTypeNum) (data : DpiData) : Env Unit where
  call
    | .stmtGetQueryInfo .., s => (.ok info, s)
    | .stmtGetQueryValue .., s => (.ok (native, data), s)
    | _, s => (.error .unsupported, s)
  release _ s := s
  storeVar _ _ s := s
  malloc _ _ s := (true, s)
  nullString := ""

/-- The description of a NUMBER column; an unconstrained one has scale -127. -/
def numberInfo (precision : Int16) (scale : Int8) : DpiQueryInfo :=
  ⟨[0x4E], ⟨.number, 0, precision, scale⟩, 1⟩

def wordData (word : UInt64) : DpiData := ⟨0, { DpiDataBuffer.zero with word }⟩

/-- The number 5 in a NUMBER column, as the word ODPI-C writes for it. -/
def fiveColumn (precision : Int16) (scale : Int8) {native : DpiNativeTypeNum} {word : UInt64}
    (hnative : populateTypeInfo (numberInfo precision scale).typeInfo = some native)
    (hfills : Fills native .oracleTypeNumber (5.0 : Float) (wordData word).value) :
    ColumnEnv (fetchedEnv (numberInfo precision scale) native (wordData word)) ⟨0, ⟨0⟩, ⟨0⟩⟩ 0
      ⟨numberInfo precision scale, .oracleTypeNumber, rfl, (5.0 : Float)⟩ where
  ready _ := True
  malloc_ok _ _ _ _ := ⟨rfl, trivial⟩
  native := native
  native_eq := hnative
  data := wordData word
  notNull := rfl
  fills := hfills
  readsLob _ _ := trivial
  queryInfo _ _ := ⟨rfl, trivial⟩
  queryValue _ _ := ⟨rfl, trivial⟩

theorem fills_five_int64 : Fills .int64 .oracleTypeNumber (5.0 : Float) (wordData 5).value := by
  change Binary64.ofInt 5 = 5.0
  decide

theorem fills_five_double :
    Fills .double .oracleTypeNumber (5.0 : Float) (wordData (Float.toBits 5.0)).value := by
  change Float.ofBits (Float.toBits 5.0) = 5.0
  decide

/-- The number 5 in a NUMBER(9,0) column is read as another number. -/
theorem decodeColumn_fiveColumn_not_faithful :
    ∃ x w', Runs (decodeColumn (fetchedEnv (numberInfo 9 0) .int64 (wordData 5)) ⟨0, ⟨0⟩, ⟨0⟩⟩ 0)
        (World.initial ()) (.ok (.oracleNumber x)) w' ∧
      x ≠ 5.0 ∧ memberReads w'.log = [.asDouble] ∧
      ¬ Faithful (fiveColumn 9 0 rfl fills_five_int64)
        (World.initial ()) := by
  have hdouble : Float.ofBits 5 ≠ 5.0 := by decide
  have hrun : Runs (decodeColumn (fetchedEnv (numberInfo 9 0) .int64 (wordData 5)) ⟨0, ⟨0⟩, ⟨0⟩⟩ 0)
      (World.initial ()) (.ok (.oracleNumber (Float.ofBits 5))) _ := rfl
  refine ⟨_, _, hrun, hdouble, rfl, ?_⟩
  rintro ⟨w', hrun', -⟩
  obtain ⟨heq, -⟩ := hrun.unique hrun'
  injection heq with heq
  injection heq with heq
  exact hdouble heq

theorem decodeColumn_faithful_five :
    Faithful (fiveColumn 0 (-127) rfl fills_five_double)
        (World.initial ()) ↔
      ¬ IntegerNumber (numberInfo 0 (-127)).typeInfo ∧ True :=
  decodeColumn_faithful_iff _ trivial

end IdrisOracle
