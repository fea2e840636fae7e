import IdrisOracle.HexCodec
import IdrisOracle.Table

/-! BLOB content on its way into a column and back. -/

namespace IdrisOracle

open Effect

section Digits

/-- The bytes of a VARCHAR as single characters. -/
def latin (text : List UInt8) : List Char := text.map fun byte => Char.ofNat byte.toNat

theorem toNat_latin (byte : UInt8) : (Char.ofNat byte.toNat).toNat = byte.toNat := by
  have hvalid : byte.toNat.isValidChar := .inl (by have := byte.toNat_lt; omega)
  rw [Char.ofNat, dif_pos hvalid]
  rfl

end Digits

/-- How Oracle assigns VARCHAR text to a BLOB or a RAW: as hexadecimal, or not at all. -/
structure HexAssignment where
  convert : List UInt8 → Option (List UInt8)
  complete : ∀ text bytes, hexDecode.go (latin text) = some bytes → convert text = some bytes
  sound : ∀ text bytes, convert text = some bytes →
    hexDecode.go (latin text) = some bytes ∨ hexDecode.go ('0' :: latin text) = some bytes

/-- Oracle refuses the text; an empty text is no error but NULL. -/
def HexAssignment.Rejects (H : HexAssignment) (text : List UInt8) : Prop :=
  text ≠ [] ∧ H.convert text = none

/-- The assignment of a variable to a BLOB column. -/
def toBlob (H : HexAssignment) : Conversion .oracleTypeBlob := fun type data =>
  let value := data.value.asBytes.getD []
  if data.isNull ≠ 0 ∨ value = [] then .ok none
  else if type = .varchar then
    match H.convert value with
    | none => .error (.oracle ⟨1465, by decide⟩ "ORA-01465: invalid hex number")
    | some bytes =>
        if h : bytes.length < 2 ^ 47 then .ok (some ⟨bytes, h⟩)
        else .error (.oracle ⟨22993, by decide⟩ "ORA-22993: specified input amount is too large")
  else .error inconsistentTypes

def blobLayout : Layout .oracleTypeBlob where
  info := ⟨[0x42], ⟨.blob, 0, 0, 0⟩, 1⟩
  type_eq := rfl
  native := .lob
  native_eq := rfl
  fill _ := { DpiDataBuffer.zero with asLOB := some ⟨0⟩ }
  fills _ := nofun
  lobBytes bytes := bytes

/-- The text the library binds for a BLOB. -/
def blobText (b : ByteString) : List UInt8 := counted (toC (String.ofList (CString.decode b)))

section

variable {b : ByteString}

theorem length_counted_le (text : List UInt8) : (counted text).length < 2 ^ 32 := by
  have hmod : text.length % 2 ^ 32 < 2 ^ 32 := Nat.mod_lt _ (by decide)
  have htake := List.length_take_le (text.length % 2 ^ 32) text
  exact Nat.lt_of_le_of_lt htake hmod

/-- A bound text of ASCII bytes is no longer than the content. -/
theorem length_blobText_le (hascii : ∀ byte ∈ blobText b, byte.toNat < 128) :
    (blobText b).length ≤ b.length := by
  have htext : blobText b = (CString.encode (CString.visible (CString.decode b))).take
      ((toC (String.ofList (CString.decode b))).length % 2 ^ 32) := by
    rw [blobText, counted, toC, String.toList_ofList, CString.cut_encode]
  rw [htext] at hascii ⊢
  calc _ ≤ (CString.visible (CString.decode b)).length := CString.length_take_encode_le hascii
    _ ≤ (CString.decode b).length := (List.takeWhile_sublist _).length_le
    _ ≤ b.length := CString.length_decode_le b

/-- A control character is bound as itself. -/
theorem blobText_control {byte : UInt8} (hbyte : byte.toNat < 16) (hzero : byte ≠ 0) :
    blobText [byte] = [byte] := by
  have hcontrol : ∀ n < 16, UInt8.ofNat n ≠ 0 → blobText [UInt8.ofNat n] = [UInt8.ofNat n] := by
    decide
  simpa using hcontrol byte.toNat hbyte (by simpa using hzero)

/-- Oracle's conversion never gives back the content. -/
theorem convert_ne_self {H : HexAssignment} (htext : blobText b ≠ []) :
    H.convert (blobText b) ≠ some b := by
  intro hconvert
  have hdigits : ∀ byte ∈ blobText b, ∃ value, hexValue (Char.ofNat byte.toNat) = some value := by
    intro byte hbyte
    have hlatin : Char.ofNat byte.toNat ∈ latin (blobText b) := List.mem_map_of_mem hbyte
    rcases H.sound _ _ hconvert with h | h
    · exact hexValue_of_hexDecode_go h _ hlatin
    · exact hexValue_of_hexDecode_go h _ (List.mem_cons_of_mem _ hlatin)
  have hlength : (blobText b).length ≤ b.length := by
    refine length_blobText_le fun byte hbyte => ?_
    obtain ⟨value, hvalue⟩ := hdigits byte hbyte
    have hrange := (range_of_hexValue hvalue).2.1
    rwa [toNat_latin] at hrange
  have hpos : 0 < (blobText b).length := List.length_pos_iff.mpr htext
  rcases H.sound _ _ hconvert with h | h
  · have htwice := length_hexDecode_go h
    simp only [latin, List.length_map] at htwice
    omega
  · have htwice := length_hexDecode_go h
    simp only [latin, List.length_cons, List.length_map] at htwice
    obtain ⟨byte, rfl⟩ := List.length_eq_one_iff.mp (show b.length = 1 by omega)
    obtain ⟨digit, hdigit⟩ :=
      List.length_eq_one_iff.mp (show (blobText [byte]).length = 1 by simp at *; omega)
    obtain ⟨value, hvalue⟩ := hdigits digit (by simp [hdigit])
    obtain ⟨hlow, -, hsmall⟩ := range_of_hexValue hvalue
    have hbyte : byte = value := by
      have hzero : hexValue '0' = some 0 := rfl
      simp [hdigit, latin, hexDecode.go, hexPair, hvalue, hzero] at h
      exact h.symm
    have hnonzero : byte ≠ 0 := by
      rintro rfl
      exact htext (by decide)
    have hself := blobText_control (hbyte ▸ hsmall) hnonzero
    rw [hself] at hdigit
    cases hdigit
    rw [toNat_latin, hbyte] at hlow
    omega

/-- The INSERT has stored the content in the column or has failed. -/
def StoresBlob {σ : Type} {env : Env σ} {H : HexAssignment} {insert : Statement} {name : String}
    (T : InsertColumn env (toBlob H) insert name) (b : ByteString) (r : Outcome Unit)
    (w : World σ) : Prop :=
  (∃ err, r = .error err) ∨ ∃ content, T.stored w.odpi = some content ∧ content.1 = b

theorem toBlob_empty {H : HexAssignment} (htext : blobText b = []) :
    toBlob H .varchar (dpiDataSetBytes .zero (blobText b)) = .ok none := by
  simp [toBlob, dpiDataSetBytes, htext]

theorem toBlob_rejected {H : HexAssignment} (hrejects : H.Rejects (blobText b)) :
    ∃ failure, toBlob H .varchar (dpiDataSetBytes .zero (blobText b)) = .error failure := by
  obtain ⟨htext, hconvert⟩ := hrejects
  exact ⟨.oracle ⟨1465, by decide⟩ "ORA-01465: invalid hex number", by
    simp [toBlob, dpiDataSetBytes, DpiData.zero, htext, hconvert]⟩

theorem toBlob_converted {H : HexAssignment} {bytes : List UInt8} (htext : blobText b ≠ [])
    (hconvert : H.convert (blobText b) = some bytes) :
    ∃ h, toBlob H .varchar (dpiDataSetBytes .zero (blobText b)) = .ok (some ⟨bytes, h⟩) := by
  have hbound : (blobText b).length < 2 ^ 32 := length_counted_le _
  have hlength : bytes.length < 2 ^ 47 := by
    rcases H.sound _ _ hconvert with h | h
    · have htwice := length_hexDecode_go h
      simp only [latin, List.length_map] at htwice
      omega
    · have htwice := length_hexDecode_go h
      simp only [latin, List.length_cons, List.length_map] at htwice
      omega
  refine ⟨hlength, ?_⟩
  simp only [toBlob, dpiDataSetBytes, Option.getD_some, htext, hconvert, dif_pos hlength]
  rfl

theorem storesBlob_iff {σ : Type} {env : Env σ} {H : HexAssignment} {insert : Statement}
    {name : String} (T : InsertColumn env (toBlob H) insert name) {r : Outcome Unit}
    {w w₁ : World σ}
    (hinsert : Runs (bindAndExecute env insert ⟨name, .oracleBlob b⟩) w r w₁)
    (hclean : ¬ H.Rejects (blobText b) → NoFailure w w₁) :
    StoresBlob T b r w₁ ↔ H.Rejects (blobText b) := by
  have haccepts : (∃ stored, toBlob H .varchar (dpiDataSetBytes .zero (blobText b)) =
      .ok stored) → NoFailure w w₁ := by
    rintro ⟨stored, hok⟩
    refine hclean fun hrejects => ?_
    obtain ⟨failure, hfailure⟩ := toBlob_rejected hrejects
    cases hok.symm.trans hfailure
  have hcases := T.outcome rfl rfl hinsert haccepts
  by_cases hrejects : H.Rejects (blobText b)
  · obtain ⟨failure, hfailure⟩ := toBlob_rejected hrejects
    refine iff_of_true ?_ hrejects
    rcases hcases with ⟨_, err, -, rfl⟩ | ⟨stored, hok, -⟩
    · exact .inl ⟨err, rfl⟩
    · cases hok.symm.trans hfailure
  · refine iff_of_false ?_ hrejects
    by_cases htext : blobText b = []
    · rcases hcases with ⟨_, _, hfailure, -⟩ | ⟨stored, hok, rfl, hcolumn⟩
      · cases hfailure.symm.trans (toBlob_empty htext)
      · cases hok.symm.trans (toBlob_empty htext)
        rintro (⟨_, heq⟩ | ⟨content, hcontent, -⟩)
        · cases heq
        · cases hcolumn.symm.trans hcontent
    · obtain ⟨bytes, hconvert⟩ : ∃ bytes, H.convert (blobText b) = some bytes := by
        refine Option.ne_none_iff_exists'.mp fun hnone => ?_
        exact hrejects ⟨htext, hnone⟩
      obtain ⟨h, hbytes⟩ := toBlob_converted htext hconvert
      rcases hcases with ⟨_, _, hfailure, -⟩ | ⟨stored, hok, rfl, hcolumn⟩
      · cases hfailure.symm.trans hbytes
      · cases hok.symm.trans hbytes
        rintro (⟨_, heq⟩ | ⟨content, hcontent, hself⟩)
        · cases heq
        · cases hcolumn.symm.trans hcontent
          obtain rfl : bytes = b := hself
          exact convert_ne_self htext hconvert

/-- BLOB content survives both ways iff it is read empty and refused as hexadecimal on insert. -/
theorem blob_preserved_iff {σ τ : Type} {env : Env σ} {stmt : OracleStmt} {column : Int32}
    {info : DpiQueryInfo} {hty : fromOracleTypeNum info.typeInfo.oracleTypeNum = .oracleTypeBlob}
    {c : Content .oracleTypeBlob} (C : ColumnEnv env stmt column ⟨info, .oracleTypeBlob, hty, c⟩)
    {w : World σ} (hready : C.ready w.odpi) {into : Env τ} {H : HexAssignment}
    {insert : Statement} {name : String} (T : InsertColumn into (toBlob H) insert name)
    {w₀ w₁ : World τ} {r₁ : Outcome Unit}
    (hinsert : Runs (bindAndExecute into insert ⟨name, .oracleBlob b⟩) w₀ r₁ w₁)
    (hclean : ¬ H.Rejects (blobText b) → NoFailure w₀ w₁) :
    ((∃ w', Runs (decodeColumn env stmt column) w (.ok (.oracleBlob c)) w') ∧
        StoresBlob T b r₁ w₁) ↔
      c.1 = [] ∧ H.Rejects (blobText b) := by
  obtain ⟨r, w', hrun, hvalue, -⟩ := runs_decodeColumn C hready (not_integerNumber (by simp))
  rw [storesBlob_iff T hinsert hclean]
  refine and_congr_left' ⟨?_, fun hempty => ?_⟩
  · rintro ⟨w₁, hrun₁⟩
    obtain ⟨rfl, -⟩ := hrun.unique hrun₁
    exact hvalue.mp rfl
  · obtain rfl := hvalue.mpr hempty
    exact ⟨w', hrun⟩

end

/-- A session with a table of one BLOB column. -/
def blobEnv (H : HexAssignment) : Env (Table .oracleTypeBlob) :=
  tableEnv (tableSql "content") blobLayout (toBlob H) fun _ => true

theorem readsLob_blob (H : HexAssignment) (content : Content .oracleTypeBlob) (lob : DpiLob) :
    ReadsLob (blobEnv H) (fun s => s.row = some (some content)) lob .oracleTypeBlob content := by
  obtain ⟨bytes, hlength⟩ := content
  have hsize : (UInt64.ofNat bytes.length).toNat = bytes.length :=
    UInt64.toNat_ofNat_of_lt' (by change bytes.length < 2 ^ 64; omega)
  constructor
  · intro s hrow
    simp [blobEnv, tableEnv, Table.lobBytes, hrow, blobLayout]
  · intro s hrow
    simp [blobEnv, tableEnv, Table.lobBytes, hrow, blobLayout, hsize]

/-- The BLOB column of the table while it stores a content. -/
def blobColumn (H : HexAssignment) (content : Content .oracleTypeBlob) :
    ColumnEnv (blobEnv H) tableFrom 0
      ⟨blobLayout.info, .oracleTypeBlob, blobLayout.type_eq, content⟩ :=
  tableColumn (tableSql "content") blobLayout (toBlob H) content tableFrom rfl
    fun lob _ => readsLob_blob H content lob

/-- A database that takes text with an even number of hexadecimal digits only. -/
def strictHex : HexAssignment where
  convert text := hexDecode.go (latin text)
  complete _ _ h := h
  sound _ _ h := .inl h

/-- The column of the table as the target of its INSERT. -/
def blobInsert (H : HexAssignment) : InsertColumn (blobEnv H) (toBlob H) tableInto "content" :=
  tableInsert blobLayout (toBlob H) (fun _ => true) tableInto "content" tableFrom.stmt

/-- The INSERT of a BLOB. -/
def insertBlob (b : ByteString) : Eff (World (Table .oracleTypeBlob)) (Outcome Unit) :=
  bindAndExecute (blobEnv strictHex) tableInto ⟨"content", .oracleBlob b⟩

/-- The decoding of a BLOB. -/
def readBlob : Eff (World (Table .oracleTypeBlob)) (Outcome OracleValue) :=
  decodeColumn (blobEnv strictHex) tableFrom 0

/-- The table after the byte 255 has been stored. -/
def stored255 : Table .oracleTypeBlob := ⟨[], none, some (some ⟨[0xFF], by decide⟩)⟩

/-- The content `FF` is stored as the byte 255, which is read back as the two digits. -/
theorem blob_not_preserved :
    (∃ w₁, Runs (insertBlob [0x46, 0x46]) (World.initial .empty) (.ok ()) w₁ ∧
        w₁.odpi.row = stored255.row ∧
        ¬ StoresBlob (blobInsert strictHex) [0x46, 0x46] (.ok ()) w₁) ∧
      (∃ w₂, Runs readBlob (World.initial stored255) (.ok (.oracleBlob [0x46, 0x46])) w₂) ∧
      ¬ ∃ w₂, Runs readBlob (World.initial stored255) (.ok (.oracleBlob [0xFF])) w₂ := by
  have hread : Runs readBlob (World.initial stored255) (.ok (.oracleBlob [0x46, 0x46])) _ := rfl
  let w₁ := (World.initial .empty).after (insertBlob [0x46, 0x46])
  refine ⟨⟨w₁, rfl, rfl, ?_⟩, ⟨_, hread⟩, ?_⟩
  · rintro (⟨err, herror⟩ | ⟨content, hstored, hself⟩)
    · cases herror
    · cases hstored
      cases hself
  · rintro ⟨w₂, hsame⟩
    cases (hread.unique hsame).1

/-- An empty cell, and the byte 128, which Oracle refuses as hexadecimal. -/
theorem blob_preserved_empty :
    ∃ err w₁, Runs (insertBlob [0x80]) (World.initial .empty) (.error err) w₁ ∧
      (((∃ w', Runs readBlob (World.initial ⟨[], none, some (some ⟨[], by decide⟩)⟩)
            (.ok (.oracleBlob [])) w') ∧
          StoresBlob (blobInsert strictHex) [0x80] (.error err) w₁) ↔
        ([] : List UInt8) = [] ∧ strictHex.Rejects (blobText [0x80])) := by
  let w₁ := (World.initial .empty).after (insertBlob [0x80])
  let C := blobColumn strictHex ⟨[], by decide⟩
  let w := World.initial (⟨[], none, some (some ⟨[], by decide⟩)⟩ : Table .oracleTypeBlob)
  have hready : C.ready w.odpi := rfl
  obtain ⟨err, hinsert⟩ : ∃ err, Runs (insertBlob [0x80]) (World.initial .empty) (.error err) w₁ :=
    ⟨_, rfl⟩
  have hrejects : strictHex.Rejects (blobText [0x80]) := ⟨by decide, by decide⟩
  exact ⟨err, w₁, hinsert, blob_preserved_iff C hready (blobInsert strictHex) hinsert
    fun haccepts => absurd hrejects haccepts⟩

end IdrisOracle
