import IdrisOracle.Binding
import IdrisOracle.ResultSet

/-! Text on its way into a VARCHAR2 or CLOB column and back. -/

namespace IdrisOracle

open Effect

/-- The two kinds of text columns that the library binds values for. -/
inductive TextKind where
  | varchar
  | clob
deriving DecidableEq

namespace TextKind

def type : TextKind → OracleType
  | varchar => .oracleTypeVarchar
  | clob => .oracleTypeClob

def value (s : String) : TextKind → OracleValue
  | varchar => .oracleString s
  | clob => .oracleClob s

/-- The bytes the driver hands over for a cell that is not NULL. -/
def Delivers (cell : DriverCell) (bytes : List UInt8) : TextKind → Prop
  | varchar => cell.data.value.asBytes = some bytes
  | clob => cell.data.value.asLOB ≠ none ∧ cell.lobBytes = bytes

end TextKind

/-- The text the library binds for a String. -/
def handed (s : String) : List UInt8 := counted (toC s)

/-- What Oracle stores for a text; an empty one is NULL. -/
def storedBytes (bytes : List UInt8) : Option (List UInt8) :=
  if bytes = [] then none else some bytes

/-- The cell is a cell of the column, and carries what is stored. -/
structure Carries (kind : TextKind) (cell : DriverCell) (stored : Option (List UInt8)) : Prop where
  type_eq : cell.type = kind.type
  null : stored = none → cell.data.isNull ≠ 0
  text : ∀ bytes, stored = some bytes → cell.data.isNull = 0 ∧ kind.Delivers cell bytes

/-- The placeholder of an INSERT and the cell it writes, which get the bytes they are given. -/
structure TextColumn {σ : Type} (env : Env σ) (kind : TextKind) (insert : Statement) where
  bound : σ → List UInt8
  stored : σ → Option (List UInt8)
  binds : ∀ name bytes s, (env.call (.stmtBindValueByName insert.ptr.stmt name .bytes
    (dpiDataSetBytes .zero bytes)) s).1 = .ok () →
      bound (env.call (.stmtBindValueByName insert.ptr.stmt name .bytes
        (dpiDataSetBytes .zero bytes)) s).2 = bytes
  inserts : ∀ s, (env.call (.stmtExecute insert.ptr.stmt) s).1 = .ok () →
    stored (env.call (.stmtExecute insert.ptr.stmt) s).2 = storedBytes (bound s)

section Read

variable {s : String}

/-- The bytes handed over have no zero byte. -/
theorem cut_handed : CString.cut (handed s) = handed s := by
  rw [CString.cut, List.takeWhile_eq_self_iff]
  intro byte hbyte
  have hmem : byte ∈ CString.cut (CString.encode s.toList) := List.mem_of_mem_take hbyte
  exact List.mem_takeWhile_imp (p := (· != 0)) hmem

/-- A text is read back from what is handed over iff nothing of it is cut off. -/
theorem read_handed_iff :
    CString.read (handed s) = s ↔
      '\x00' ∉ s.toList ∧ (CString.encode s.toList).length < 2 ^ 32 := by
  have htext : handed s = (CString.encode (CString.visible s.toList)).take
      ((CString.encode (CString.visible s.toList)).length % 2 ^ 32) := by
    rw [handed, counted, toC, CString.cut_encode]
  rw [CString.read, cut_handed]
  constructor
  · intro h
    have hdecode : CString.decode (handed s) = s.toList := by
      rw [← String.toList_ofList (l := CString.decode (handed s)), h]
    have hvisible : (CString.visible s.toList).length ≤ s.toList.length :=
      (List.takeWhile_sublist _).length_le
    by_cases hshort : (CString.encode (CString.visible s.toList)).length < 2 ^ 32
    · rw [htext, Nat.mod_eq_of_lt hshort, List.take_length, CString.decode_encode] at hdecode
      rw [hdecode] at hshort
      exact ⟨CString.visible_eq_self.mp hdecode, hshort⟩
    · have hlt := Nat.mod_lt (CString.encode (CString.visible s.toList)).length
        (show 0 < 2 ^ 32 by omega)
      have hbound := @CString.length_decodeFrom_take (handed s).length
        (CString.visible s.toList) _ (Nat.mod_le _ (2 ^ 32))
      rw [← htext] at hbound
      have hcount : (CString.decodeFrom (handed s).length (handed s)).length =
          s.toList.length := congrArg List.length hdecode
      omega
  · rintro ⟨hzero, hshort⟩
    have hvisible := CString.visible_eq_self.mpr hzero
    rw [htext, hvisible, Nat.mod_eq_of_lt hshort, List.take_length, CString.decode_encode,
      String.ofList_toList]

end Read

section RoundTrip

variable {σ : Type} {env : Env σ} {kind : TextKind} {insert : Statement} {name s : String}
  {w w₁ w₂ w₃ : World σ}

/-- Bind a value to the INSERT and execute it. -/
def bindAndExecute (env : Env σ) (insert : Statement) (param : BindParameter) :
    Eff (World σ) (Outcome Unit) :=
  andThen (bindOne env insert param) fun _ => execute env insert

theorem runs_execute_ok {stmt : Statement} (hrun : Runs (execute env stmt) w (.ok ()) w₁) :
    (env.call (.stmtExecute stmt.ptr.stmt) w.odpi).1 = .ok () ∧
      w₁ = w.called env (.stmtExecute stmt.ptr.stmt) := by
  cases hcall : (env.call (.stmtExecute stmt.ptr.stmt) w.odpi).1 with
  | error failure => simp [Runs, execute, oracleExecuteStmt, hcall] at hrun
  | ok reply =>
      simp [Runs, execute, oracleExecuteStmt, hcall] at hrun
      exact ⟨rfl, hrun.symm⟩

/-- After the INSERT the cell has what was handed over. -/
theorem stored_of_runs_bindAndExecute (T : TextColumn env kind insert)
    (hinsert : Runs (bindAndExecute env insert ⟨name, kind.value s⟩) w (.ok ()) w₁) :
    T.stored w₁.odpi = storedBytes (handed s) := by
  rcases runs_andThen.mp hinsert with ⟨err, -, herror⟩ | ⟨_, w₂, hbind, hexecute⟩
  · cases herror
  · have hnative : Runs (oracleBindNative env insert.ptr (toC name) .bytes
        (dpiDataSetBytes .zero (handed s))) w 0 w₂ := by
      cases kind with
      | varchar => exact runs_bindOne_ok.mp hbind
      | clob => exact runs_bindOne_ok.mp hbind
    obtain ⟨hbound, hworld⟩ := runs_oracleBindNative_ok hnative
    obtain ⟨hexecuted, rfl⟩ := runs_execute_ok hexecute
    rw [World.called_odpi, T.inserts _ hexecuted, hworld, World.called_odpi, T.binds _ _ _ hbound]

/-- The value of a cell that carries a text is the String that C reads from it. -/
theorem value_of_carries {cell : DriverCell} {bytes : List UInt8}
    (h : Carries kind cell (some bytes)) :
    cell.Supported ∧ cell.value = kind.value (CString.read bytes) := by
  obtain ⟨hnull, hdelivers⟩ := h.text bytes rfl
  have htype := h.type_eq
  rw [DriverCell.Supported, DriverCell.value_of_not_null hnull, htype]
  cases kind with
  | varchar =>
      have hbytes : cell.data.value.asBytes = some bytes := hdelivers
      refine ⟨.inr ?_, ?_⟩
      · simp [TextKind.type, DriverCell.Holds, hbytes]
      · simp [TextKind.type, TextKind.value, DriverCell.content, hbytes]
  | clob =>
      obtain ⟨hlob, hbytes⟩ := hdelivers
      refine ⟨.inr hlob, ?_⟩
      simp [TextKind.type, TextKind.value, DriverCell.content, hbytes]

theorem value_inj {s t : String} : kind.value s = kind.value t ↔ s = t := by
  cases kind <;> simp [TextKind.value]

/-- A String that was inserted is read back iff it has no zero character and is short enough. -/
theorem text_preserved_iff (C : ResultSet env) (T : TextColumn env kind insert) (hs : s ≠ "")
    (hinsert : Runs (bindAndExecute env insert ⟨name, kind.value s⟩) w (.ok ()) w₁)
    {ptr : OracleStmt} {column : Int32} {cell : DriverCell} {r : Outcome OracleValue}
    (hcell : (C.current ptr.stmt w₂.odpi)[(position column).toNat - 1]? = some cell)
    (hcarries : Carries kind cell (T.stored w₁.odpi))
    (hread : Runs (decodeColumn env ptr column) w₂ r w₃) (hclean : NoFailure w₂ w₃) :
    r = .ok (kind.value s) ↔
      '\x00' ∉ s.toList ∧ (CString.encode s.toList).length < 2 ^ 32 := by
  rw [stored_of_runs_bindAndExecute T hinsert] at hcarries
  rw [← read_handed_iff]
  by_cases hempty : handed s = []
  · rw [storedBytes, if_pos hempty] at hcarries
    have hnull := hcarries.null rfl
    have hvalue := ((cleanly_decodeColumn hcell (.inl hnull)).spec _ _ _ ⟨rfl, rfl⟩ hread hclean).1
    rw [DriverCell.value_of_null hnull] at hvalue
    rw [hvalue, hempty, CString.read_nil]
    refine iff_of_false ?_ hs.symm
    cases kind <;> simp [TextKind.value]
  · rw [storedBytes, if_neg hempty] at hcarries
    obtain ⟨hsupported, hvalue⟩ := value_of_carries hcarries
    have hr := ((cleanly_decodeColumn hcell hsupported).spec _ _ _ ⟨rfl, rfl⟩ hread hclean).1
    rw [hr, hvalue, Except.ok.injEq, value_inj]

end RoundTrip

/-- The byte starts a character of UTF-8. -/
def isLead (byte : UInt8) : Bool := byte &&& 0xC0 != 0x80

/-- The bytes of the first characters of a text, each with the bytes that continue it. -/
def firstChars : Nat → List UInt8 → List UInt8
  | _, [] => []
  | 0, byte :: bytes => if isLead byte then [] else byte :: firstChars 0 bytes
  | n + 1, byte :: bytes => byte :: firstChars (if isLead byte then n else n + 1) bytes

theorem firstChars_of_countP_le {n : Nat} {bytes : List UInt8} (h : bytes.countP isLead ≤ n) :
    firstChars n bytes = bytes := by
  induction bytes generalizing n with
  | nil => cases n <;> rfl
  | cons byte bytes ih =>
      rw [List.countP_cons] at h
      cases n with
      | zero =>
          have hlead : ¬ isLead byte := fun hlead => by simp [hlead] at h
          rw [firstChars, if_neg hlead, ih (by omega)]
      | succ n =>
          rw [firstChars, ih]
          split at h
          · rw [if_pos (by assumption)]
            omega
          · rw [if_neg (by assumption)]
            omega

/-- A text column with one cell, and what is bound to the INSERT that writes it. -/
structure Note where
  bound : List UInt8
  stored : Option (List UInt8)
  short : (stored.getD []).length < 2 ^ 32

namespace Note

variable (kind : TextKind)

def empty : Note := ⟨[], none, by decide⟩

def cell (note : Note) : DriverCell where
  info :=
    ⟨[0x54], ⟨match kind with | .varchar => .varchar | .clob => .clob, 0, 0, 0⟩, 1⟩
  native := match kind with | .varchar => .bytes | .clob => .lob
  data :=
    match note.stored with
    | none => dpiDataSetNull .zero
    | some bytes => ⟨0, { DpiDataBuffer.zero with asBytes := some bytes, asLOB := some ⟨0⟩ }⟩
  lobBytes := note.stored.getD []

theorem short_storedBytes {bytes : List UInt8} (h : bytes.length < 2 ^ 32) :
    ((storedBytes bytes).getD []).length < 2 ^ 32 := by
  unfold storedBytes
  split
  · exact Nat.two_pow_pos 32
  · exact h

def execute (note : Note) : Except DpiError Unit × Note :=
  if h : note.bound.length < 2 ^ 32 then
    (.ok (), ⟨note.bound, storedBytes note.bound, short_storedBytes h⟩)
  else (.error (.oracle ⟨1461, by decide⟩ "ORA-01461: can bind a LONG value only for LONG"), note)

def env : Env Note where
  call req note :=
    match req with
    | .stmtBindValueByName _ _ _ data =>
        (.ok (), { note with bound := data.value.asBytes.getD [] })
    | .stmtExecute _ => (note.execute.1, note.execute.2)
    | .stmtFetch _ => (.ok false, note)
    | .stmtGetNumQueryColumns _ => (.ok 1, note)
    | .stmtGetQueryInfo .. => (.ok (note.cell kind).info, note)
    | .stmtGetQueryValue .. => (.ok ((note.cell kind).native, (note.cell kind).data), note)
    | .lobGetSize _ => (.ok (UInt64.ofNat ((note.stored.getD []).countP isLead)), note)
    | .lobGetBufferSize _ chars =>
        (.ok (UInt64.ofNat (firstChars chars.toNat (note.stored.getD [])).length), note)
    | .lobReadBytes _ _ chars length =>
        (.ok ((firstChars chars.toNat (note.stored.getD [])).take length.toNat), note)
    | _ => (.error .unsupported, note)
  release _ note := note
  storeVar _ _ note := note
  malloc _ _ note := (true, note)
  nullString := ""

theorem mem_current {note : Note} {k : Nat} {found : DriverCell}
    (h : [note.cell kind][k]? = some found) : found = note.cell kind :=
  List.mem_singleton.mp (List.mem_of_getElem? h)

theorem type_cell (note : Note) : (note.cell kind).type = kind.type := by
  cases kind <;> rfl

theorem lobSize_cell (note : Note) :
    (note.cell kind).lobSize (List.countP isLead) (note.cell kind).type =
      (note.stored.getD []).countP isLead := by
  rw [type_cell]
  cases kind <;> rfl

theorem countP_lt (note : Note) : (note.stored.getD []).countP isLead < UInt64.size := by
  have hle : (note.stored.getD []).countP isLead ≤ (note.stored.getD []).length :=
    List.countP_le_length
  have hshort := note.short
  rw [UInt64.size]
  omega

/-- The cell as a result set whose only row has been fetched. -/
def resultSet : ResultSet (env kind) where
  chars := List.countP isLead
  rows _ _ := []
  current _ note := [note.cell kind]
  fetched _ _ _ hcall := by
    cases hcall
    exact .inl ⟨rfl, rfl⟩
  counted _ _ _ hcall := by
    cases hcall
    rfl
  described _ _ _ _ hcall found hfound := by
    cases hcall
    rw [mem_current kind hfound]
  valued _ _ _ _ hcall found hfound := by
    cases hcall
    rw [mem_current kind hfound]
  sized _ note _ _ hcall found hfound _ := by
    cases hcall
    rw [List.mem_singleton.mp hfound, lobSize_cell, UInt64.toNat_ofNat_of_lt' (countP_lt note)]
  buffered _ note _ _ _ hcall found hfound _ hchars := by
    cases hcall
    rw [List.mem_singleton.mp hfound, lobSize_cell] at hchars
    have hshort := note.short
    rw [List.mem_singleton.mp hfound, firstChars_of_countP_le hchars.ge,
      UInt64.toNat_ofNat_of_lt' (by rw [UInt64.size]; omega)]
    exact le_rfl
  readLob _ note _ _ _ _ hcall found hfound _ hchars hlength := by
    cases hcall
    rw [List.mem_singleton.mp hfound] at hlength ⊢
    rw [List.mem_singleton.mp hfound, lobSize_cell] at hchars
    rw [firstChars_of_countP_le hchars.ge]
    exact List.take_of_length_le hlength
  supported _ _ _ hrow := absurd hrow List.not_mem_nil
  called _ req _ hreq := by
    cases req <;> first
      | exact hreq.elim
      | exact ⟨rfl, rfl⟩
  released _ _ _ := ⟨rfl, rfl⟩
  stored _ _ _ _ := ⟨rfl, rfl⟩
  allocated _ _ _ _ := ⟨rfl, rfl⟩

def column (insert : Statement) : TextColumn (env kind) kind insert where
  bound note := note.bound
  stored note := note.stored
  binds _ _ _ _ := rfl
  inserts note hcall := by
    by_cases hshort : note.bound.length < 2 ^ 32
    · simp only [env, execute, dif_pos hshort]
    · simp only [env, execute, dif_neg hshort] at hcall
      cases hcall

theorem carries (note : Note) : Carries kind (note.cell kind) note.stored where
  type_eq := type_cell kind note
  null h := by simp [cell, h, dpiDataSetNull]
  text bytes h := by
    cases kind with
    | varchar => exact ⟨by simp [cell, h], by simp [cell, h, TextKind.Delivers]⟩
    | clob => exact ⟨by simp [cell, h], by simp [cell, h, TextKind.Delivers]⟩

/-- Nothing fails while the cell is read. -/
theorem noFailure_decodeColumn {stmt : OracleStmt} {column : Int32} {r : Outcome OracleValue}
    {w w' : World Note} (hrun : Runs (decodeColumn (env kind) stmt column) w r w') :
    NoFailure w w' := by
  have F : Follows (env kind) Req.Group.OnRow (fun _ => True) NoFailure := by
    refine NoFailure.follows (fun req note hreq => ?_) fun _ _ _ => rfl
    cases req <;> first
      | exact hreq.elim
      | exact ⟨_, rfl⟩
  refine (preserves_decodeColumn F trivial stmt column fun ty => ?_).of_runs hrun
  exact preserves_cell F trivial stmt column fun data =>
    preserves_value F trivial (fun _ => trivial) data

end Note

/-- The INSERT of the column and the SELECT that reads it. -/
def noteInsert : Statement := ⟨⟨0, ⟨0⟩, ⟨0⟩⟩⟩

def noteSelect : OracleStmt := ⟨1, ⟨0⟩, ⟨1⟩⟩

/-- Insert a text into the column. -/
def writeNote (kind : TextKind) (s : String) : Eff (World Note) (Outcome Unit) :=
  bindAndExecute (Note.env kind) noteInsert ⟨"t", kind.value s⟩

def readNote (kind : TextKind) : Eff (World Note) (Outcome OracleValue) :=
  decodeColumn (Note.env kind) noteSelect 0

theorem text_preserved_iff_accent :
    ∃ w₁ w₂, Runs (writeNote .clob "é") (World.initial .empty) (.ok ()) w₁ ∧
      Runs (readNote .clob) w₁ (.ok (.oracleClob "é")) w₂ := by
  let w := World.initial Note.empty
  let w₁ := (writeNote .clob "é" w).elim w Prod.snd
  have hinsert : Runs (writeNote .clob "é") w (.ok ()) w₁ := rfl
  obtain ⟨r, w₂, hread, -⟩ := grows_decodeColumn noteSelect 0 w₁
  have hcell : ((Note.resultSet .clob).current noteSelect.stmt w₁.odpi)[(position 0).toNat - 1]? =
      some (w₁.odpi.cell .clob) := rfl
  have hr := (text_preserved_iff (Note.resultSet .clob) (Note.column .clob noteInsert)
    (by decide) hinsert hcell (Note.carries .clob _) hread
    (Note.noFailure_decodeColumn .clob hread)).mpr (by decide)
  rw [hr] at hread
  exact ⟨w₁, w₂, hinsert, hread⟩

theorem runs_note_zero (kind : TextKind) :
    ∃ w₁ w₂, Runs (writeNote kind "a\x00b") (World.initial .empty) (.ok ()) w₁ ∧
      Runs (readNote kind) w₁ (.ok (kind.value "a")) w₂ ∧
      ¬ ∃ w₃, Runs (readNote kind) w₁ (.ok (kind.value "a\x00b")) w₃ := by
  let w := World.initial Note.empty
  let w₁ := (writeNote kind "a\x00b" w).elim w Prod.snd
  let w₂ := (readNote kind w₁).elim w₁ Prod.snd
  have hwrite : Runs (writeNote kind "a\x00b") w (.ok ()) w₁ := by cases kind <;> rfl
  have hread : Runs (readNote kind) w₁ (.ok (kind.value "a")) w₂ := by cases kind <;> rfl
  refine ⟨w₁, w₂, hwrite, hread, ?_⟩
  rintro ⟨w₃, hagain⟩
  have hvalue := Except.ok.inj (hread.unique hagain).1
  exact absurd (value_inj.mp hvalue) (by decide)

/-- Everything from a zero character on is lost, in both kinds of columns. -/
theorem text_zero_not_preserved :
    (∃ w₁ w₂, Runs (writeNote .varchar "a\x00b") (World.initial .empty) (.ok ()) w₁ ∧
        Runs (readNote .varchar) w₁ (.ok (.oracleString "a")) w₂ ∧
        ¬ ∃ w₃, Runs (readNote .varchar) w₁ (.ok (.oracleString "a\x00b")) w₃) ∧
      ∃ w₁ w₂, Runs (writeNote .clob "a\x00b") (World.initial .empty) (.ok ()) w₁ ∧
        Runs (readNote .clob) w₁ (.ok (.oracleClob "a")) w₂ ∧
        ¬ ∃ w₃, Runs (readNote .clob) w₁ (.ok (.oracleClob "a\x00b")) w₃ :=
  ⟨runs_note_zero .varchar, runs_note_zero .clob⟩

end IdrisOracle
