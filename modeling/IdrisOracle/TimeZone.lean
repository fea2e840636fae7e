import IdrisOracle.Table

/-! Timestamps with a time zone on their way into a column and back. -/

namespace IdrisOracle

open Effect

section Narrow

theorem toInt16_toInt32_iff {n : Int32} :
    n.toInt16.toInt32 = n ↔ -2 ^ 15 ≤ n.toInt ∧ n.toInt < 2 ^ 15 := by
  rw [← Int32.toInt_inj, Int16.toInt_toInt32, Int32.toInt_toInt16]
  constructor
  · intro h
    rw [← h]
    exact ⟨Int.le_bmod (by decide), Int.bmod_lt (by decide)⟩
  · rintro ⟨hlow, hhigh⟩
    exact Int.bmod_eq_of_le (by omega) (by omega)

theorem toInt8_toInt32 {n : Int32} (hlow : -2 ^ 7 ≤ n.toInt) (hhigh : n.toInt < 2 ^ 7) :
    n.toInt8.toInt32 = n := by
  apply Int32.toInt_inj.mp
  rw [Int8.toInt_toInt32, Int32.toInt_toInt8]
  exact Int.bmod_eq_of_le (by omega) (by omega)

/-- What is left of a field that passes through a byte. -/
theorem toInt_toUInt8 (n : Int32) : n.toInt8.toUInt8.toUInt32.toInt32.toInt = n.toInt % 2 ^ 8 := by
  have hbyte : n.toInt8.toUInt8.toNat = (n.toInt % 2 ^ 8).toNat := by
    have hextend : n.toInt8.toUInt8.toNat = (n.toBitVec.signExtend 8).toNat := rfl
    rw [hextend, BitVec.signExtend, BitVec.toNat_ofInt]
    rfl
  have hlt := n.toInt8.toUInt8.toNat_lt
  have hword : n.toInt8.toUInt8.toUInt32.toNat = n.toInt8.toUInt8.toNat := rfl
  rw [toInt_toInt32, hword, Int.bmod_eq_of_le (by omega) (by omega), hbyte]
  omega

theorem toUInt8_toInt32_iff {n : Int32} :
    n.toInt8.toUInt8.toUInt32.toInt32 = n ↔ 0 ≤ n.toInt ∧ n.toInt < 2 ^ 8 := by
  rw [← Int32.toInt_inj, toInt_toUInt8]
  omega

end Narrow

/-- The fields are in the ranges Oracle allows. -/
structure OracleTimestampTZ.Legal (v : OracleTimestampTZ) : Prop where
  year : -4712 ≤ v.year.toInt ∧ v.year.toInt ≤ 9999
  month : 1 ≤ v.month.toInt ∧ v.month.toInt ≤ 12
  day : 1 ≤ v.day.toInt ∧ v.day.toInt ≤ 31
  hour : 0 ≤ v.hour.toInt ∧ v.hour.toInt ≤ 23
  minute : 0 ≤ v.minute.toInt ∧ v.minute.toInt ≤ 59
  second : 0 ≤ v.second.toInt ∧ v.second.toInt ≤ 59
  nanosecond : 0 ≤ v.nanosecond.toInt ∧ v.nanosecond.toInt ≤ 999999999
  tzHourOffset : -12 ≤ v.tzHourOffset.toInt ∧ v.tzHourOffset.toInt ≤ 14
  tzMinuteOffset : -59 ≤ v.tzMinuteOffset.toInt ∧ v.tzMinuteOffset.toInt ≤ 59

/-- The timestamp the library binds for a value. -/
def OracleTimestampTZ.toDpi (v : OracleTimestampTZ) : DpiTimestamp where
  year := v.year.toInt16
  month := v.month.toInt8.toUInt8
  day := v.day.toInt8.toUInt8
  hour := v.hour.toInt8.toUInt8
  minute := v.minute.toInt8.toUInt8
  second := v.second.toInt8.toUInt8
  fsecond := v.nanosecond.toUInt32
  tzHourOffset := v.tzHourOffset.toInt8
  tzMinuteOffset := v.tzMinuteOffset.toInt8

namespace DpiTimestamp

def withOffset (ts : DpiTimestamp) (offset : Int8 × Int8) : DpiTimestamp :=
  { ts with tzHourOffset := offset.1, tzMinuteOffset := offset.2 }

/-- The plain TIMESTAMP, which carries no offset. -/
def plain (ts : DpiTimestamp) : DpiTimestamp := ts.withOffset (0, 0)

end DpiTimestamp

/-- The offset of the session time zone at a local time, if that time exists. -/
abbrev Zone := DpiTimestamp → Option (Int8 × Int8)

/-- The assignment of a variable to a TIMESTAMP WITH TIME ZONE column. -/
def toTimestampTZ (zone : Zone) : Conversion .oracleTypeTimestampTZ := fun type data =>
  if data.isNull ≠ 0 then .ok none
  else if type = .timestamp then
    match zone data.value.asTimestamp.plain with
    | none => .error (.oracle ⟨1878, by decide⟩ "ORA-01878: specified field not found")
    | some offset => .ok (some (data.value.asTimestamp.plain.withOffset offset))
  else if type = .timestampTZ then .ok (some data.value.asTimestamp)
  else .error inconsistentTypes

/-- A TIMESTAMP(9) WITH TIME ZONE column. -/
def timestampTZLayout : Layout .oracleTypeTimestampTZ where
  info := ⟨[0x54, 0x53], ⟨.timestampTZ, 0, 0, 9⟩, 1⟩
  type_eq := rfl
  native := .timestamp
  native_eq := rfl
  fill ts := { DpiDataBuffer.zero with asTimestamp := ts }
  fills _ := rfl
  lobBytes _ := []

section

variable {v : OracleTimestampTZ}

theorem ofDpi_withOffset (hlegal : v.Legal) (offset : Int8 × Int8) :
    OracleTimestampTZ.ofDpi (v.toDpi.plain.withOffset offset) =
      { v with tzHourOffset := offset.1.toInt32, tzMinuteOffset := offset.2.toInt32 } := by
  obtain ⟨hyear, hmonth, hday, hhour, hminute, hsecond, hnano, -, -⟩ := hlegal
  have hyear' := toInt16_toInt32_iff (n := v.year).mpr (by omega)
  have hmonth' := toUInt8_toInt32_iff (n := v.month).mpr (by omega)
  have hday' := toUInt8_toInt32_iff (n := v.day).mpr (by omega)
  have hhour' := toUInt8_toInt32_iff (n := v.hour).mpr (by omega)
  have hminute' := toUInt8_toInt32_iff (n := v.minute).mpr (by omega)
  have hsecond' := toUInt8_toInt32_iff (n := v.second).mpr (by omega)
  simp [OracleTimestampTZ.ofDpi, OracleTimestampTZ.toDpi, DpiTimestamp.plain,
    DpiTimestamp.withOffset, hyear', hmonth', hday', hhour', hminute', hsecond']

/-- The value comes back with its own offset iff the session zone supplied that offset. -/
theorem ofDpi_withOffset_eq_iff (hlegal : v.Legal) (offset : Int8 × Int8) :
    OracleTimestampTZ.ofDpi (v.toDpi.plain.withOffset offset) = v ↔
      offset = (v.tzHourOffset.toInt8, v.tzMinuteOffset.toInt8) := by
  obtain ⟨hour, minute⟩ := offset
  have hhour := hlegal.tzHourOffset
  have hminute := hlegal.tzMinuteOffset
  rw [ofDpi_withOffset hlegal]
  constructor
  · intro heq
    have h₁ : hour.toInt32 = v.tzHourOffset := congrArg OracleTimestampTZ.tzHourOffset heq
    have h₂ : minute.toInt32 = v.tzMinuteOffset := congrArg OracleTimestampTZ.tzMinuteOffset heq
    simp [← h₁, ← h₂]
  · intro heq
    cases heq
    simp [toInt8_toInt32 (n := v.tzHourOffset) (by omega) (by omega),
      toInt8_toInt32 (n := v.tzMinuteOffset) (by omega) (by omega)]

theorem toTimestampTZ_none {zone : Zone} {ts : DpiTimestamp} (hzone : zone ts.plain = none) :
    ∃ failure, toTimestampTZ zone .timestamp (dpiDataSetTimestamp .zero ts) = .error failure := by
  refine ⟨.oracle ⟨1878, by decide⟩ "ORA-01878: specified field not found", ?_⟩
  simp [toTimestampTZ, dpiDataSetTimestamp, DpiData.zero, hzone]

theorem toTimestampTZ_some {zone : Zone} {ts : DpiTimestamp} {offset : Int8 × Int8}
    (hzone : zone ts.plain = some offset) :
    toTimestampTZ zone .timestamp (dpiDataSetTimestamp .zero ts) =
      .ok (some (ts.plain.withOffset offset)) := by
  simp [toTimestampTZ, dpiDataSetTimestamp, DpiData.zero, hzone]

/-- A value that is inserted keeps its offset iff the session time zone supplies it. -/
theorem timestampTZ_preserved_iff {σ : Type} {env : Env σ} {zone : Zone} {insert : Statement}
    {name : String} (C : ResultSet env) (T : InsertColumn env (toTimestampTZ zone) insert name)
    (hlegal : v.Legal) {w w₁ w₂ w₃ : World σ} {r₁ : Outcome Unit}
    (hinsert : Runs (bindAndExecute env insert ⟨name, .oracleTimestampTZ v⟩) w r₁ w₁)
    (hclean₁ : zone v.toDpi.plain ≠ none → NoFailure w w₁)
    {ptr : OracleStmt} {column : Int32} {cell : DriverCell} {r : Outcome OracleValue}
    (hcell : (C.current ptr.stmt w₂.odpi)[(position column).toNat - 1]? = some cell)
    (hstored : CellOf cell (T.stored w₁.odpi))
    (hread : Runs (decodeColumn env ptr column) w₂ r w₃) (hclean : NoFailure w₂ w₃) :
    (r₁ = .ok () ∧ r = .ok (.oracleTimestampTZ v)) ↔
      zone v.toDpi.plain = some (v.tzHourOffset.toInt8, v.tzMinuteOffset.toInt8) := by
  have haccepts : (∃ stored, toTimestampTZ zone .timestamp (dpiDataSetTimestamp .zero v.toDpi) =
      .ok stored) → NoFailure w w₁ := by
    rintro ⟨stored, hok⟩
    refine hclean₁ fun hzone => ?_
    obtain ⟨failure, hfailure⟩ := toTimestampTZ_none hzone
    cases hok.symm.trans hfailure
  have hcases := T.outcome rfl rfl hinsert haccepts
  cases hzone : zone v.toDpi.plain with
  | none =>
      obtain ⟨failure, hfailure⟩ := toTimestampTZ_none hzone
      rcases hcases with ⟨_, err, -, rfl⟩ | ⟨stored, hok, -⟩
      · refine iff_of_false ?_ fun hsome => by cases hsome
        rintro ⟨hok, -⟩
        cases hok
      · cases hok.symm.trans hfailure
  | some offset =>
      have hconvert := toTimestampTZ_some hzone
      rcases hcases with ⟨failure, err, hfailure, -⟩ | ⟨stored, hok, rfl, hcolumn⟩
      · cases hfailure.symm.trans hconvert
      · cases hok.symm.trans hconvert
        rw [hcolumn] at hstored
        obtain rfl := hstored.read C trivial hcell hread hclean
        have hvalue : (some (v.toDpi.plain.withOffset offset)).elim .oracleNull
            (Content.value .oracleTypeTimestampTZ) =
              .oracleTimestampTZ (.ofDpi (v.toDpi.plain.withOffset offset)) := rfl
        rw [hvalue, Option.some_inj, ← ofDpi_withOffset_eq_iff hlegal]
        constructor
        · rintro ⟨-, heq⟩
          exact OracleValue.oracleTimestampTZ.inj (Except.ok.inj heq)
        · intro heq
          exact ⟨rfl, by rw [heq]⟩

end

/-- Noon of a day at offset +05:30. -/
def noonIndia : OracleTimestampTZ := ⟨2024, 1, 15, 12, 0, 0, 0, 5, 30⟩

theorem legal_noonIndia : noonIndia.Legal where
  year := by decide
  month := by decide
  day := by decide
  hour := by decide
  minute := by decide
  second := by decide
  nanosecond := by decide
  tzHourOffset := by decide
  tzMinuteOffset := by decide

/-- A session in a zone. -/
def zoneEnv (zone : Zone) : Env (Table .oracleTypeTimestampTZ) :=
  tableEnv (tableSql "at") timestampTZLayout (toTimestampTZ zone) fun _ => true

/-- The session inserts the value. -/
def insertNoon (zone : Zone) : Eff (World (Table .oracleTypeTimestampTZ)) (Outcome Unit) :=
  bindAndExecute (zoneEnv zone) tableInto ⟨"at", .oracleTimestampTZ noonIndia⟩

/-- The session reads it back. -/
def readNoon (zone : Zone) : Eff (World (Table .oracleTypeTimestampTZ)) (Outcome OracleValue) :=
  decodeColumn (zoneEnv zone) tableFrom 0

/-- In a session at UTC the value comes back with offset 0. -/
theorem noonIndia_not_preserved :
    noonIndia.Legal ∧ ∃ w₁ w₂,
      Runs (insertNoon fun _ => some (0, 0)) (World.initial .empty) (.ok ()) w₁ ∧
      Runs (readNoon fun _ => some (0, 0)) w₁
        (.ok (.oracleTimestampTZ { noonIndia with tzHourOffset := 0, tzMinuteOffset := 0 })) w₂ ∧
      ¬ ∃ w₃, Runs (readNoon fun _ => some (0, 0)) w₁ (.ok (.oracleTimestampTZ noonIndia)) w₃ := by
  let w₁ := (World.initial .empty).after (insertNoon fun _ => some (0, 0))
  have hread : Runs (readNoon fun _ => some (0, 0)) w₁
      (.ok (.oracleTimestampTZ { noonIndia with tzHourOffset := 0, tzMinuteOffset := 0 }))
      (w₁.after (readNoon fun _ => some (0, 0))) := rfl
  refine ⟨legal_noonIndia, w₁, _, rfl, hread, ?_⟩
  rintro ⟨w₃, hsame⟩
  have hvalue := OracleValue.oracleTimestampTZ.inj (Except.ok.inj (hread.unique hsame).1)
  exact absurd hvalue (by decide)

theorem timestampTZ_preserved_noonIndia :
    ∃ w₁ w₂ r, Runs (insertNoon fun _ => some (5, 30)) (World.initial .empty) (.ok ()) w₁ ∧
      Runs (readNoon fun _ => some (5, 30)) w₁ r w₂ ∧
      (((.ok () : Outcome Unit) = .ok () ∧ r = .ok (.oracleTimestampTZ noonIndia)) ↔
        some ((5 : Int8), (30 : Int8)) =
          some (noonIndia.tzHourOffset.toInt8, noonIndia.tzMinuteOffset.toInt8)) := by
  let zone : Zone := fun _ => some (5, 30)
  let w := World.initial (Table.empty : Table .oracleTypeTimestampTZ)
  let w₁ := w.after (insertNoon zone)
  let w₂ := w₁.after (readNoon zone)
  have hinsert : Runs (insertNoon zone) w (.ok ()) w₁ := rfl
  have hread : Runs (readNoon zone) w₁ (.ok (.oracleTimestampTZ noonIndia)) w₂ := rfl
  have hinserted : NoFailure w w₁ := ⟨w₁.log, rfl, by decide⟩
  have hreading : NoFailure w₁ w₂ := ⟨w₂.log.drop w₁.log.length, rfl, by decide⟩
  obtain ⟨cell, hcell⟩ : ∃ cell, w₁.odpi.cell timestampTZLayout = some cell := ⟨_, rfl⟩
  exact ⟨w₁, w₂, _, hinsert, hread, timestampTZ_preserved_iff (tableRow fun _ => rfl)
    (tableInsert timestampTZLayout (toTimestampTZ zone) (fun _ => true) tableInto "at"
      tableFrom.stmt) legal_noonIndia hinsert (fun _ => hinserted)
    (current_tableRow (fun _ => rfl) rfl hcell) (cellOf_table hcell) hread hreading⟩

end IdrisOracle
