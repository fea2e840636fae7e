import IdrisOracle.Shim
import Mathlib.Data.List.Nodup

/-! The stores of the two hexadecimal writers of the C layer. -/

namespace IdrisOracle

open Effect

variable {width size : Nat} {bytes text : List UInt8}

/-- Every store of a writer, the final zero included. -/
def hexStores (width : Nat) (bytes : List UInt8) : List (Nat × UInt8) :=
  hexWrites width 0 bytes ++ [(bytes.length * 2, 0)]

/-- How often a position of the block is written. -/
def timesWritten (width : Nat) (bytes : List UInt8) (k : Nat) : Nat :=
  ((hexStores width bytes).map Prod.fst).count k

/-- A writer leaves the text and a zero byte in its block, and writes each position once. -/
structure WritesHex (size width : Nat) (bytes text : List UInt8) : Prop where
  text_eq : text = CString.encode (hexEncode bytes).toList ++ [0]
  size_eq : size = 2 * bytes.length + 1
  fills : ∀ block : List UInt8, block.length = size →
    (hexStores width bytes).foldl store block = text
  inside : ∀ write ∈ hexStores width bytes, write.1 < size
  once : ∀ k < size, timesWritten width bytes k = 1

section Positions

/-- While the counter does not wrap, the positions follow one another. -/
theorem map_fst_hexWrites (width i : Nat) (bytes : List UInt8)
    (hwidth : (i + bytes.length) * 2 ≤ width) :
    (hexWrites width i bytes).map Prod.fst = List.range' (i * 2) (bytes.length * 2) := by
  induction bytes generalizing i with
  | nil => rfl
  | cons byte bytes ih =>
      simp only [List.length_cons] at hwidth
      have hhigh : i * 2 % width = i * 2 := Nat.mod_eq_of_lt (by omega)
      have hlow : (i * 2 + 1) % width = i * 2 + 1 := Nat.mod_eq_of_lt (by omega)
      have hrest := ih (i + 1) (by omega)
      rw [Nat.add_mul] at hrest
      rw [hexWrites, hhigh, hlow, List.map_cons, List.map_cons, hrest, List.length_cons,
        Nat.add_mul, List.range'_succ, List.range'_succ]

theorem map_fst_hexStores (hwidth : bytes.length * 2 ≤ width) :
    (hexStores width bytes).map Prod.fst = List.range (bytes.length * 2 + 1) := by
  have hloop := map_fst_hexWrites width 0 bytes (by omega)
  rw [hexStores, List.map_append, hloop, List.range_succ, List.range_eq_range']
  simp

/-- No store of the loop is at the width of its counter or beyond. -/
theorem lt_of_mem_hexWrites {i k : Nat} (hpos : 0 < width)
    (hk : k ∈ (hexWrites width i bytes).map Prod.fst) : k < width := by
  induction bytes generalizing i with
  | nil => simp [hexWrites] at hk
  | cons byte bytes ih =>
      rw [hexWrites, List.map_cons, List.map_cons, List.mem_cons, List.mem_cons] at hk
      rcases hk with rfl | rfl | hk
      · exact Nat.mod_lt _ hpos
      · exact Nat.mod_lt _ hpos
      · exact ih hk

/-- The position at the width of the counter is skipped by a loop that wraps. -/
theorem timesWritten_width (hpos : 0 < width) (hwidth : width < bytes.length * 2) :
    timesWritten width bytes width = 0 := by
  have hloop : width ∉ (hexWrites width 0 bytes).map Prod.fst := fun hmem =>
    Nat.lt_irrefl _ (lt_of_mem_hexWrites hpos hmem)
  have hlast : ¬ bytes.length * 2 = width := by omega
  rw [timesWritten, hexStores, List.map_append, List.count_append,
    List.count_eq_zero_of_not_mem hloop]
  simp [hlast]

/-- Whatever the block held before, the stores leave the text and a zero byte. -/
theorem foldl_hexStores (hwidth : bytes.length * 2 ≤ width) (block : List UInt8)
    (hblock : block.length = bytes.length * 2 + 1) :
    (hexStores width bytes).foldl store block =
      CString.encode (hexEncode bytes).toList ++ [0] := by
  obtain rfl | ⟨front, last, rfl⟩ := List.eq_nil_or_concat block
  · simp at hblock
  have hfront : front.length = bytes.length * 2 := by simpa using hblock
  have hfill := foldl_hexWrites width 0 bytes [] front [last] rfl hfront (by omega)
  rw [List.nil_append, List.nil_append] at hfill
  rw [List.concat_eq_append, hexStores, List.foldl_append, hfill, encode_hexEncode,
    ← length_hexBytes]
  simp [store]

/-- A writer is right as long as twice the length fits its counter. -/
theorem writesHex_iff (hpos : 0 < width) (hsize : size = bytes.length * 2 + 1) :
    WritesHex size width bytes (hexBlock width bytes) ↔ bytes.length * 2 ≤ width := by
  constructor
  · intro h
    by_contra hlarge
    have honce := h.once width (by omega)
    rw [timesWritten_width hpos (by omega)] at honce
    omega
  · intro hwidth
    have hpositions := map_fst_hexStores hwidth
    refine ⟨hexBlock_eq width bytes hwidth, by omega, fun block hblock => ?_, ?_, fun k hk => ?_⟩
    · rw [foldl_hexStores hwidth block (by omega), hexBlock_eq width bytes hwidth]
    · intro write hwrite
      have hmem : write.1 ∈ List.range (bytes.length * 2 + 1) := by
        rw [← hpositions]
        exact List.mem_map_of_mem hwrite
      rw [List.mem_range] at hmem
      omega
    · rw [timesWritten, hpositions]
      exact List.count_eq_one_of_mem List.nodup_range (List.mem_range.mpr (by omega))

end Positions

section Writers

variable {σ : Type} {env : Env σ} {w w' : World σ} {block : Nat}

/-- ODPI-C reads no more bytes of a LOB than the buffer holds. -/
def ReadsWithin (env : Env σ) : Prop :=
  ∀ lob offset amount length s bytes,
    (env.call (.lobReadBytes lob offset amount length) s).1 = .ok bytes →
      bytes.length ≤ length.toNat

theorem runs_oracleDataBytesHex {data : DpiData}
    (hrun : Runs (oracleDataBytesHex env data) w (some (block, text)) w') :
    text = hexBlock (2 ^ 32) (data.value.asBytes.getD []) := by
  obtain ⟨read, w₁, hread, hrun⟩ := runs_bind.mp hrun
  cases hread
  obtain ⟨ptr, w₂, -, hrun⟩ := runs_bind.mp hrun
  cases ptr with
  | none => cases hrun
  | some hex =>
      cases hrun
      rfl

theorem runs_oracleLobRead {lob : DpiLob} {offset length : Int64}
    (hrun : Runs (oracleLobRead env (some lob) offset length) w (some (block, text)) w') :
    ∃ bytes,
      (env.call (.lobReadBytes lob offset.toUInt64 length.toUInt64 length.toUInt64)
        (w.allocated env .lobBuffer length.toUInt64.toNat).odpi).1 = .ok bytes ∧
      text = hexBlock (2 ^ 64) bytes := by
  obtain ⟨buffer, w₁, hbuffer, hrun⟩ := runs_bind.mp hrun
  cases buffer with
  | none => cases hrun
  | some buffer =>
      obtain ⟨reply, w₂, hreply, hrun⟩ := runs_bind.mp hrun
      have hworld := (runs_malloc_some hbuffer).2
      have hcall := (runs_odpi hreply).1
      rw [hworld] at hcall
      cases reply with
      | error failure =>
          obtain ⟨_, _, _, hrun⟩ := runs_bind.mp hrun
          obtain ⟨_, _, _, hrun⟩ := runs_bind.mp hrun
          cases hrun
      | ok bytes =>
          obtain ⟨hex, w₃, _, hrun⟩ := runs_bind.mp hrun
          refine ⟨bytes, hcall, ?_⟩
          cases hex with
          | none =>
              obtain ⟨_, _, _, hrun⟩ := runs_bind.mp hrun
              cases hrun
          | some hex =>
              obtain ⟨_, _, _, hrun⟩ := runs_bind.mp hrun
              cases hrun
              rfl

/-- The writer for a RAW is right up to 2 ^ 31 bytes, the one for a LOB always. -/
theorem hexWriters_right_iff (hread : ReadsWithin env) :
    (∀ data w block text w', Runs (oracleDataBytesHex env data) w (some (block, text)) w' →
        (WritesHex ((data.value.asBytes.getD []).length * 2 + 1) (2 ^ 32)
            (data.value.asBytes.getD []) text ↔
          (data.value.asBytes.getD []).length ≤ 2 ^ 31)) ∧
      ∀ lob (offset length : Int64) w block text w',
        Runs (oracleLobRead env (some lob) offset length) w (some (block, text)) w' → 0 ≤ length →
        ∃ bytes,
          (env.call (.lobReadBytes lob offset.toUInt64 length.toUInt64 length.toUInt64)
            (w.allocated env .lobBuffer length.toUInt64.toNat).odpi).1 = .ok bytes ∧
          WritesHex ((bytes.length * 2 + 1) % 2 ^ 64) (2 ^ 64) bytes text := by
  constructor
  · intro data w block text w' hrun
    rw [runs_oracleDataBytesHex hrun, writesHex_iff (by decide) rfl]
    omega
  · intro lob offset length w block text w' hrun hnonneg
    obtain ⟨bytes, hreply, rfl⟩ := runs_oracleLobRead hrun
    have hwithin := hread _ _ _ _ _ _ hreply
    have hlength : length.toUInt64.toNat < 2 ^ 63 := by
      rw [Int64.toNat_toUInt64_of_le hnonneg]
      exact length.toNatClampNeg_lt
    refine ⟨bytes, hreply, ?_⟩
    rw [writesHex_iff (by decide) (Nat.mod_eq_of_lt (by omega))]
    omega

end Writers

/-- ODPI-C with one LOB. -/
def bufferEnv (content : List UInt8) : Env Unit where
  call
    | .lobReadBytes _ _ _ length, s => (.ok (content.take length.toNat), s)
    | _, s => (.error .unsupported, s)
  release _ s := s
  storeVar _ _ s := s
  malloc _ _ s := (true, s)
  nullString := ""

theorem readsWithin_bufferEnv (content : List UInt8) : ReadsWithin (bufferEnv content) := by
  intro lob offset amount length s bytes h
  cases h
  exact List.length_take_le _ _

def bytesData (bytes : List UInt8) : DpiData := dpiDataSetBytes .zero bytes

theorem runs_oracleDataBytesHex_bytesData (content bytes : List UInt8) :
    ∃ w', Runs (oracleDataBytesHex (bufferEnv content) (bytesData bytes)) (World.initial ())
      (some (0, hexBlock (2 ^ 32) bytes)) w' :=
  ⟨_, rfl⟩

/-- Both writers on the bytes 0 and 255. -/
theorem hexWriters_right_two :
    WritesHex 5 (2 ^ 32) [0x00, 0xFF] [0x30, 0x30, 0x46, 0x46, 0] ∧
      WritesHex 5 (2 ^ 64) [0x00, 0xFF] [0x30, 0x30, 0x46, 0x46, 0] := by
  obtain ⟨hraw, hlob⟩ := hexWriters_right_iff (readsWithin_bufferEnv [0x00, 0xFF])
  have hrawRun : Runs (oracleDataBytesHex (bufferEnv [0x00, 0xFF]) (bytesData [0x00, 0xFF]))
      (World.initial ()) (some (0, [0x30, 0x30, 0x46, 0x46, 0])) _ := rfl
  have hlobRun : Runs (oracleLobRead (bufferEnv [0x00, 0xFF]) (some ⟨0⟩) 1 2) (World.initial ())
      (some (1, [0x30, 0x30, 0x46, 0x46, 0])) _ := rfl
  obtain ⟨bytes, hreply, hwrites⟩ := hlob _ _ _ _ _ _ _ hlobRun (by decide)
  cases hreply
  exact ⟨(hraw _ _ _ _ _ hrawRun).mpr (by decide), hwrites⟩

theorem oracleDataBytesHex_not_writesHex (hlong : 2 ^ 31 < bytes.length) :
    timesWritten (2 ^ 32) bytes (2 ^ 32) = 0 ∧
      ∃ text w', Runs (oracleDataBytesHex (bufferEnv []) (bytesData bytes)) (World.initial ())
          (some (0, text)) w' ∧
        ¬ WritesHex (bytes.length * 2 + 1) (2 ^ 32) bytes text := by
  obtain ⟨w', hrun⟩ := runs_oracleDataBytesHex_bytesData [] bytes
  refine ⟨timesWritten_width (by omega) (by omega), _, w', hrun, ?_⟩
  rw [writesHex_iff (by omega) rfl]
  omega

/-- A RAW of 2 ^ 31 + 1 zero bytes: the position 2 ^ 32 of its block is never written. -/
theorem oracleDataBytesHex_skips :
    timesWritten (2 ^ 32) (List.replicate (2 ^ 31 + 1) 0) (2 ^ 32) = 0 ∧
      ∃ text w', Runs (oracleDataBytesHex (bufferEnv [])
            (bytesData (List.replicate (2 ^ 31 + 1) 0))) (World.initial ()) (some (0, text)) w' ∧
        ¬ WritesHex ((List.replicate (2 ^ 31 + 1) (0 : UInt8)).length * 2 + 1) (2 ^ 32)
          (List.replicate (2 ^ 31 + 1) 0) text :=
  oracleDataBytesHex_not_writesHex (by rw [List.length_replicate]; omega)

end IdrisOracle
