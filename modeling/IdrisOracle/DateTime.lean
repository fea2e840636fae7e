import IdrisOracle.TimeZone

/-! Dates, timestamps and intervals on their way into a column and back. -/

namespace IdrisOracle

open Effect

/-- The column types whose values are records of `Int32` fields without a time zone. -/
inductive TemporalType where
  | date
  | timestamp
  | intervalYM
  | intervalDS

namespace TemporalType

/-- The record of a type. -/
@[reducible] def Record : TemporalType → Type
  | date => OracleDate
  | timestamp => OracleTimestamp
  | intervalYM => OracleIntervalYM
  | intervalDS => OracleIntervalDS

def value : (k : TemporalType) → k.Record → OracleValue
  | date, v => .oracleDate v
  | timestamp, v => .oracleTimestamp v
  | intervalYM, v => .oracleIntervalYM v
  | intervalDS, v => .oracleIntervalDS v

@[reducible] def type : TemporalType → OracleType
  | date => .oracleTypeDate
  | timestamp => .oracleTypeTimestamp
  | intervalYM => .oracleTypeIntervalYM
  | intervalDS => .oracleTypeIntervalDS

/-- The fields the library hands over for a record. -/
def handed : (k : TemporalType) → k.Record → Content k.type
  | date, v =>
      ⟨v.year.toInt16, v.month.toInt8.toUInt8, v.day.toInt8.toUInt8, v.hour.toInt8.toUInt8,
        v.minute.toInt8.toUInt8, v.second.toInt8.toUInt8, 0, 0, 0⟩
  | timestamp, v =>
      ⟨v.year.toInt16, v.month.toInt8.toUInt8, v.day.toInt8.toUInt8, v.hour.toInt8.toUInt8,
        v.minute.toInt8.toUInt8, v.second.toInt8.toUInt8, v.nanosecond.toUInt32, 0, 0⟩
  | intervalYM, v => ⟨v.years, v.months⟩
  | intervalDS, v => ⟨v.days, v.hours, v.minutes, v.seconds, v.nanoseconds⟩

/-- The fields as a `dpiData`. -/
def data : (k : TemporalType) → Content k.type → DpiData
  | date, ts | timestamp, ts => dpiDataSetTimestamp .zero ts
  | intervalYM, iv => dpiDataSetIntervalYM .zero iv
  | intervalDS, iv => dpiDataSetIntervalDS .zero iv

/-- The type of the variable ODPI-C creates for the bind. -/
def bindType : TemporalType → DpiOracleTypeNum
  | date | timestamp => .timestamp
  | intervalYM => .intervalYM
  | intervalDS => .intervalDS

/-- A DATE, a TIMESTAMP(9), an INTERVAL YEAR(9) TO MONTH and an INTERVAL DAY(9) TO SECOND(9). -/
def layout : (k : TemporalType) → Layout k.type
  | date => ⟨⟨[0x44], ⟨.date, 0, 0, 0⟩, 1⟩, rfl, .timestamp, rfl,
      fun ts => { DpiDataBuffer.zero with asTimestamp := ts }, fun _ => rfl, fun _ => []⟩
  | timestamp => ⟨⟨[0x44], ⟨.timestamp, 0, 0, 9⟩, 1⟩, rfl, .timestamp, rfl,
      fun ts => { DpiDataBuffer.zero with asTimestamp := ts }, fun _ => rfl, fun _ => []⟩
  | intervalYM => ⟨⟨[0x44], ⟨.intervalYM, 0, 9, 0⟩, 1⟩, rfl, .intervalYM, rfl,
      fun iv => { DpiDataBuffer.zero with asIntervalYM := iv }, fun _ => rfl, fun _ => []⟩
  | intervalDS => ⟨⟨[0x44], ⟨.intervalDS, 0, 9, 9⟩, 1⟩, rfl, .intervalDS, rfl,
      fun iv => { DpiDataBuffer.zero with asIntervalDS := iv }, fun _ => rfl, fun _ => []⟩

end TemporalType

/-- A year that an `int16_t` holds. -/
def YearFits (n : Int32) : Prop := -2 ^ 15 ≤ n.toInt ∧ n.toInt < 2 ^ 15

/-- A field that a `uint8_t` holds. -/
def ByteFits (n : Int32) : Prop := 0 ≤ n.toInt ∧ n.toInt < 2 ^ 8

/-- The narrowed fields hold those of the record; an interval is not narrowed. -/
def TemporalType.Fits : (k : TemporalType) → k.Record → Prop
  | date, v => YearFits v.year ∧ ByteFits v.month ∧ ByteFits v.day ∧ ByteFits v.hour ∧
      ByteFits v.minute ∧ ByteFits v.second
  | timestamp, v => YearFits v.year ∧ ByteFits v.month ∧ ByteFits v.day ∧ ByteFits v.hour ∧
      ByteFits v.minute ∧ ByteFits v.second
  | intervalYM, _ | intervalDS, _ => True

section

variable {k : TemporalType} {convert : Conversion k.type}

/-- The record comes back from the fields handed over iff they hold it. -/
theorem value_handed_iff (v : k.Record) :
    (k.handed v).value k.type = k.value v ↔ k.Fits v := by
  cases k with
  | date =>
      obtain ⟨year, month, day, hour, minute, second⟩ := v
      simp [Content.value, TemporalType.value, TemporalType.handed, TemporalType.Fits, YearFits,
        ByteFits, OracleDate.ofDpi, toInt16_toInt32_iff, toUInt8_toInt32_iff]
  | timestamp =>
      obtain ⟨year, month, day, hour, minute, second, nanosecond⟩ := v
      simp [Content.value, TemporalType.value, TemporalType.handed, TemporalType.Fits, YearFits,
        ByteFits, OracleTimestamp.ofDpi, toInt16_toInt32_iff, toUInt8_toInt32_iff]
  | intervalYM => exact iff_of_true rfl trivial
  | intervalDS => exact iff_of_true rfl trivial

/-- Oracle refuses the fields. -/
def Refuses (convert : Conversion k.type) (content : Content k.type) : Prop :=
  ∃ failure, convert k.bindType (k.data content) = .error failure

/-- Oracle stores the fields that are handed over for a record, or it refuses them. -/
def StoresOrRefuses (convert : Conversion k.type) : Prop :=
  ∀ v : k.Record, Refuses convert (k.handed v) ∨
    convert k.bindType (k.data (k.handed v)) = .ok (some (k.handed v))

theorem direct_temporal (k : TemporalType) : k.type.Direct := by
  cases k <;> exact trivial

section RoundTrip

variable {σ : Type} {env : Env σ} {insert : Statement} {name : String} {v : k.Record}
  {w w₁ w₂ w₃ : World σ} {r₁ : Outcome Unit}

/-- The INSERT of a record stores what the conversion makes of its fields, or it is refused. -/
theorem outcome_handed (T : InsertColumn env convert insert name)
    (hinsert : Runs (bindAndExecute env insert ⟨name, k.value v⟩) w r₁ w₁)
    (hclean : (∃ stored, convert k.bindType (k.data (k.handed v)) = .ok stored) →
      NoFailure w w₁) :
    (∃ failure err, convert k.bindType (k.data (k.handed v)) = .error failure ∧
      r₁ = .error err) ∨
      ∃ stored, convert k.bindType (k.data (k.handed v)) = .ok stored ∧ r₁ = .ok () ∧
        T.stored w₁.odpi = stored := by
  cases k with
  | date => exact T.outcome rfl rfl hinsert hclean
  | timestamp => exact T.outcome rfl rfl hinsert hclean
  | intervalYM => exact T.outcome rfl rfl hinsert hclean
  | intervalDS => exact T.outcome rfl rfl hinsert hclean

/-- An inserted record is read back unchanged iff it fits or Oracle refuses what was handed over
for it. -/
theorem temporal_unchanged_iff (hstores : StoresOrRefuses convert) (C : ResultSet env)
    (T : InsertColumn env convert insert name)
    (hinsert : Runs (bindAndExecute env insert ⟨name, k.value v⟩) w r₁ w₁)
    (hclean₁ : ¬ Refuses convert (k.handed v) → NoFailure w w₁)
    {ptr : OracleStmt} {column : Int32} {cell : DriverCell} {r : Outcome OracleValue}
    (hcell : (C.current ptr.stmt w₂.odpi)[(position column).toNat - 1]? = some cell)
    (hstored : CellOf cell (T.stored w₁.odpi))
    (hread : Runs (decodeColumn env ptr column) w₂ r w₃) (hclean : NoFailure w₂ w₃) :
    (r₁ = .ok () → r = .ok (k.value v)) ↔ k.Fits v ∨ Refuses convert (k.handed v) := by
  have haccepts : (∃ stored, convert k.bindType (k.data (k.handed v)) = .ok stored) →
      ¬ Refuses convert (k.handed v) := by
    rintro ⟨stored, hok⟩ ⟨failure, hfailure⟩
    cases hok.symm.trans hfailure
  have hcases := outcome_handed T hinsert fun hok => hclean₁ (haccepts hok)
  rcases hstores v with hrefuses | hconvert
  · obtain ⟨failure, hfailure⟩ := hrefuses
    refine iff_of_true ?_ (.inr ⟨failure, hfailure⟩)
    rcases hcases with ⟨_, err, -, rfl⟩ | ⟨stored, hok, -⟩
    · intro hok
      cases hok
    · cases hok.symm.trans hfailure
  · rw [or_iff_left (haccepts ⟨_, hconvert⟩), ← value_handed_iff]
    rcases hcases with ⟨failure, err, hfailure, -⟩ | ⟨stored, hok, rfl, hcolumn⟩
    · cases hfailure.symm.trans hconvert
    · cases hok.symm.trans hconvert
      rw [hcolumn] at hstored
      obtain rfl := hstored.read C (direct_temporal k) hcell hread hclean
      constructor
      · intro hvalue
        exact Except.ok.inj (hvalue rfl)
      · intro hvalue _
        exact congrArg Except.ok hvalue

end RoundTrip

end

/-- The dates Oracle stores, whatever the length of the month. -/
def LegalDate (ts : DpiTimestamp) : Prop :=
  (-4712 ≤ ts.year ∧ ts.year ≤ 9999) ∧ (1 ≤ ts.month ∧ ts.month ≤ 12) ∧
    (1 ≤ ts.day ∧ ts.day ≤ 31) ∧ ts.hour ≤ 23 ∧ ts.minute ≤ 59 ∧ ts.second ≤ 59

instance (ts : DpiTimestamp) : Decidable (LegalDate ts) := inferInstanceAs (Decidable (_ ∧ _))

/-- The assignment of a variable to a DATE column. -/
def toDate : Conversion TemporalType.date.type := fun _ data =>
  if data.isNull ≠ 0 then .ok none
  else if LegalDate data.value.asTimestamp then .ok (some data.value.asTimestamp)
  else .error (.oracle ⟨1843, by decide⟩ "ORA-01843: not a valid month")

theorem toDate_storesOrRefuses : StoresOrRefuses (k := .date) toDate := by
  intro v
  have hconvert : toDate TemporalType.date.bindType
      (TemporalType.date.data (TemporalType.date.handed v)) =
        if LegalDate (TemporalType.date.handed v) then .ok (some (TemporalType.date.handed v))
        else .error (.oracle ⟨1843, by decide⟩ "ORA-01843: not a valid month") := rfl
  by_cases hlegal : LegalDate (TemporalType.date.handed v)
  · rw [if_pos hlegal] at hconvert
    exact .inr hconvert
  · rw [if_neg hlegal] at hconvert
    exact .inl ⟨_, hconvert⟩

/-- A session with a table of one DATE column. -/
def dateEnv : Env (Table TemporalType.date.type) :=
  tableEnv (tableSql "day") TemporalType.date.layout toDate fun _ => true

/-- The session inserts a date. -/
def insertDate (v : OracleDate) : Eff (World (Table TemporalType.date.type)) (Outcome Unit) :=
  bindAndExecute dateEnv tableInto ⟨"day", .oracleDate v⟩

/-- The session reads it back. -/
def readDate : Eff (World (Table TemporalType.date.type)) (Outcome OracleValue) :=
  decodeColumn dateEnv tableFrom 0

/-- What the INSERT of a date leaves. -/
def dateWritten (v : OracleDate) : World (Table TemporalType.date.type) :=
  (World.initial .empty).after (insertDate v)

/-- What reading it back leaves. -/
def dateRead (v : OracleDate) : World (Table TemporalType.date.type) :=
  (dateWritten v).after readDate

def leapDay : OracleDate := ⟨2024, 2, 29, 12, 30, 45⟩

theorem runs_insertDate_leapDay :
    Runs (insertDate leapDay) (World.initial .empty) (.ok ()) (dateWritten leapDay) := rfl

theorem runs_readDate_leapDay :
    Runs readDate (dateWritten leapDay) (.ok (.oracleDate leapDay)) (dateRead leapDay) := rfl

theorem noFailure_insertDate_leapDay : NoFailure (World.initial .empty) (dateWritten leapDay) :=
  ⟨(dateWritten leapDay).log, rfl, by decide⟩

theorem noFailure_readDate_leapDay : NoFailure (dateWritten leapDay) (dateRead leapDay) :=
  ⟨(dateRead leapDay).log.drop (dateWritten leapDay).log.length, rfl, by decide⟩

theorem temporal_unchanged_leapDay :
    ((.ok () : Outcome Unit) = .ok () →
        (.ok (.oracleDate leapDay) : Outcome OracleValue) = .ok (.oracleDate leapDay)) ↔
      TemporalType.date.Fits leapDay ∨ Refuses toDate (TemporalType.date.handed leapDay) := by
  obtain ⟨cell, hcell⟩ :
      ∃ cell, (dateWritten leapDay).odpi.cell TemporalType.date.layout = some cell := ⟨_, rfl⟩
  exact temporal_unchanged_iff (k := .date) toDate_storesOrRefuses (tableRow fun _ => rfl)
    (tableInsert TemporalType.date.layout toDate (fun _ => true) tableInto "day" tableFrom.stmt)
    runs_insertDate_leapDay (fun _ => noFailure_insertDate_leapDay)
    (current_tableRow (fun _ => rfl) rfl hcell) (cellOf_table hcell) runs_readDate_leapDay
    noFailure_readDate_leapDay

/-- Month 257 is stored as January. -/
theorem month257_not_unchanged :
    StoresOrRefuses (k := .date) toDate ∧
      Runs (insertDate ⟨2024, 257, 29, 12, 30, 45⟩) (World.initial .empty) (.ok ())
        (dateWritten ⟨2024, 257, 29, 12, 30, 45⟩) ∧
      Runs readDate (dateWritten ⟨2024, 257, 29, 12, 30, 45⟩)
        (.ok (.oracleDate ⟨2024, 1, 29, 12, 30, 45⟩)) (dateRead ⟨2024, 257, 29, 12, 30, 45⟩) ∧
      ¬ ∃ w, Runs readDate (dateWritten ⟨2024, 257, 29, 12, 30, 45⟩)
        (.ok (.oracleDate ⟨2024, 257, 29, 12, 30, 45⟩)) w := by
  have hread : Runs readDate (dateWritten ⟨2024, 257, 29, 12, 30, 45⟩)
      (.ok (.oracleDate ⟨2024, 1, 29, 12, 30, 45⟩)) (dateRead ⟨2024, 257, 29, 12, 30, 45⟩) := rfl
  refine ⟨toDate_storesOrRefuses, rfl, hread, ?_⟩
  rintro ⟨w, hsame⟩
  have hvalue := OracleValue.oracleDate.inj (Except.ok.inj (hread.unique hsame).1)
  exact absurd hvalue (by decide)

end IdrisOracle
