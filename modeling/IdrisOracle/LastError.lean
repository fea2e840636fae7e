import IdrisOracle.Log
import Mathlib.Data.List.DropRight
import Mathlib.Tactic.IntervalCases

/-! Which failure the last error describes, after any history of library calls. -/

namespace IdrisOracle

open Effect

variable {σ α β : Type} {env : Env σ}

section Scan

theorem digitChar_facts {d : Nat} (hd : d < 10) :
    (Nat.digitChar d).isDigit = true ∧ (Nat.digitChar d).toNat - 48 = d ∧
      isSpace (Nat.digitChar d) = false ∧ Nat.digitChar d ≠ '-' ∧ Nat.digitChar d ≠ '+' := by
  interval_cases d <;> decide

theorem takeWhile_fourDigits {n : Nat} (hn : n < 10000) (rest : List Char) :
    (fourDigits n ++ ':' :: rest).takeWhile Char.isDigit = fourDigits n := by
  have h₁ := digitChar_facts (show n / 1000 < 10 by omega)
  have h₂ := digitChar_facts (show n / 100 % 10 < 10 by omega)
  have h₃ := digitChar_facts (show n / 10 % 10 < 10 by omega)
  have h₄ := digitChar_facts (show n % 10 < 10 by omega)
  have hcolon : ':'.isDigit = false := by decide
  simp [fourDigits, h₁.1, h₂.1, h₃.1, h₄.1, hcolon]

theorem foldl_fourDigits {n : Nat} (hn : n < 10000) :
    (fourDigits n).foldl (fun m d => m * 10 + (d.toNat - 48)) 0 = n := by
  have h₁ := (digitChar_facts (show n / 1000 < 10 by omega)).2.1
  have h₂ := (digitChar_facts (show n / 100 % 10 < 10 by omega)).2.1
  have h₃ := (digitChar_facts (show n / 10 % 10 < 10 by omega)).2.1
  have h₄ := (digitChar_facts (show n % 10 < 10 by omega)).2.1
  simp only [fourDigits, List.foldl_cons, List.foldl_nil, h₁, h₂, h₃, h₄]
  omega

theorem scanDecimal_fourDigits {n : Nat} (hn : n < 10000) (rest : List Char) :
    scanDecimal (fourDigits n ++ ':' :: rest) = some (Int32.ofNat n) := by
  obtain ⟨-, -, hspace, hminus, hplus⟩ := digitChar_facts (show n / 1000 < 10 by omega)
  have htake := takeWhile_fourDigits hn rest
  have hfold := foldl_fourDigits hn
  have hdrop : (fourDigits n ++ ':' :: rest).dropWhile isSpace = fourDigits n ++ ':' :: rest := by
    simp [fourDigits, hspace]
  have hsign : scanSign (fourDigits n ++ ':' :: rest) = (1, fourDigits n ++ ':' :: rest) := by
    simp only [fourDigits, List.cons_append]
    unfold scanSign
    split
    · simp_all
    · simp_all
    · rfl
  simp only [scanDecimal, hdrop, hsign, htake, hfold]
  simp [fourDigits, Int32.ofInt_eq_ofNat]

theorem scanDpi_text (num : { n : Nat // 1000 ≤ n ∧ n < 10000 }) (text : String) :
    scanDpi (DpiError.odpi num text).text = some (Int32.ofNat num) := by
  have hlist : (DpiError.odpi num text).text.toList =
      'D' :: 'P' :: 'I' :: '-' :: (fourDigits num ++ ':' :: ' ' :: text.toList) := by
    have hdpi : "DPI-".toList = ['D', 'P', 'I', '-'] := by decide
    have hcolon : ": ".toList = [':', ' '] := by decide
    simp only [DpiError.text_odpi, String.toList_ofList, hdpi, hcolon, List.cons_append,
      List.nil_append, List.append_assoc]
  simp only [scanDpi, hlist]
  exact scanDecimal_fourDigits num.2.2 _

end Scan

section Steps

/-- The last event of an operation that is no cleanup. -/
def lastStep (delta : List Event) : Option Event :=
  (delta.filter fun event => !event.isCleanup).getLast?

@[simp] theorem lastStep_nil : lastStep [] = none := rfl

theorem lastStep_append (d₁ d₂ : List Event) :
    lastStep (d₁ ++ d₂) = (lastStep d₂).or (lastStep d₁) := by
  simp [lastStep, List.getLast?_append]

theorem lastStep_concat (delta : List Event) (event : Event) :
    lastStep (delta ++ [event]) = if event.isCleanup then lastStep delta else some event := by
  rw [lastStep_append]
  cases hevent : event.isCleanup <;> simp [lastStep, hevent]

end Steps

section Holds

/-- The error is the one that ODPI-C reported. -/
def Matches (err : OracleError) (failure : DpiError) : Prop :=
  err.code = failure.number ∧ err.message = failure.message

/-- The error has the number of the failure and the text of the error buffer. -/
def Repeats (err : OracleError) (failure : DpiError) : Prop :=
  err.code = failure.number ∧ err.message = failure.text

theorem stripTrailing_eq_self {text : List Char} :
    stripTrailing text = text ↔ ∀ c ∈ text.tail.getLast?, isSpace c = false := by
  cases text with
  | nil => simp [stripTrailing]
  | cons c rest =>
      have hstrip : stripTrailing (c :: rest) = c :: rest.rdropWhile isSpace := by
        rw [stripTrailing, List.rdropWhile]
      rw [hstrip, List.cons_inj_right, List.rdropWhile_eq_self_iff, List.tail_cons]
      cases rest using List.reverseRecOn with
      | nil => simp
      | append_singleton rest last => simp

/-- ODPI-C reports the whole text iff there is no whitespace to strip. -/
theorem message_eq_text_iff (failure : DpiError) :
    failure.message = failure.text ↔ failure.Trimmed := by
  cases failure with
  | oracle num text =>
      rw [DpiError.message_oracle, DpiError.text_oracle, ← String.toList_inj,
        String.toList_ofList]
      exact stripTrailing_eq_self
  | odpi num text => exact iff_of_true (DpiError.message_odpi num text) trivial

theorem Repeats.matches_iff {err : OracleError} {failure : DpiError} (h : Repeats err failure) :
    Matches err failure ↔ failure.Trimmed := by
  rw [Matches, h.1, h.2, ← message_eq_text_iff]
  simp [eq_comm]

/-- The globals hold the number of the failure, and the buffer holds its text. -/
structure World.Holds (w : World σ) (failure : DpiError) : Prop where
  hasError : w.gHasError = true
  code : w.gLastError.code = failure.number
  pointer : w.gLastError.message = .buffer
  text : w.errorBuffer.message = failure.text

theorem World.Holds.repeats_lastError {w : World σ} {failure : DpiError} (h : w.Holds failure) :
    Repeats (w.lastError env) failure := by
  simp [Repeats, World.lastError, h.hasError, h.code, h.pointer, h.text]

theorem World.Holds.record {w : World σ} {failure : DpiError} (h : w.Holds failure)
    (event : Event) : (w.record event).Holds failure :=
  ⟨h.hasError, h.code, h.pointer, h.text⟩

theorem World.Holds.released {w : World σ} {failure : DpiError} (h : w.Holds failure)
    (handle : Handle) : (w.released env handle).Holds failure :=
  ⟨h.hasError, h.code, h.pointer, h.text⟩

theorem holds_captured {w : World σ} {failure : DpiError} (length : Nat)
    (htext : w.errorBuffer.message = failure.text) :
    (w.captured ⟨failure.code, .buffer, length⟩).Holds failure := by
  refine ⟨rfl, ?_, rfl, htext⟩
  cases failure with
  | oracle num text => simp [World.captured, DpiError.code, DpiError.number, num.2]
  | odpi num text =>
      have hscan := scanDpi_text num text
      simp [World.captured, htext, DpiError.code, DpiError.number, hscan]

theorem holds_capturedLast {w : World σ} {failure : DpiError} (hcontext : w.gContext = true)
    (hcode : w.errorBuffer.code = failure.code) (htext : w.errorBuffer.message = failure.text) :
    w.capturedLast.Holds failure := by
  rw [World.capturedLast, if_pos hcontext, hcode]
  exact holds_captured _ htext

theorem holds_called {w : World σ} {req : Req} {failure : DpiError} (hcontext : w.gContext = true)
    (hcall : (env.call req w.odpi).1 = .error failure) :
    (w.called env req).capturedLast.Holds failure :=
  holds_capturedLast hcontext (by simp [World.called, ErrorBuffer.after, hcall])
    (by simp [World.called, ErrorBuffer.after, hcall])

theorem holds_called_record {w : World σ} {req : Req} {failure : DpiError} (event : Event)
    (hcontext : w.gContext = true) (hcall : (env.call req w.odpi).1 = .error failure) :
    ((w.called env req).record event).capturedLast.Holds failure :=
  holds_capturedLast hcontext (by simp [World.called, World.record, ErrorBuffer.after, hcall])
    (by simp [World.called, World.record, ErrorBuffer.after, hcall])

end Holds

section Blames

/-- An error of the computation is the failure of its last step, if that step failed in ODPI-C. -/
def Blames (m : Eff (World σ) (Outcome α)) : Prop :=
  ∀ w err w' delta, w.gContext = true → Runs m w (.error err) w' → w'.log = w.log ++ delta →
    ∀ req failure, lastStep delta = some (.call req (.error failure)) → Repeats err failure

theorem runs_oracleQueryInfo_none {stmt : OracleStmt} {column : Int32} {w w' : World σ}
    (hrun : Runs (oracleQueryInfo env stmt column) w none w') :
    w' = w.refused env .queryInfo 128 ∨
      ∃ failure,
        let w₁ := w.allocated env .queryInfo 128
        let req := Req.stmtGetQueryInfo stmt.stmt (position column)
        (env.call req w₁.odpi).1 = .error failure ∧
          w' = ((w₁.called env req).record (.free w.nextBlock)).capturedLast := by
  cases hmalloc : (env.malloc .queryInfo 128 w.odpi).1 with
  | false =>
      simp [Runs, oracleQueryInfo, hmalloc] at hrun
      exact .inl hrun.symm
  | true =>
      cases hcall : (env.call (.stmtGetQueryInfo stmt.stmt (position column))
          (w.allocated env .queryInfo 128).odpi).1 with
      | error failure =>
          simp [Runs, oracleQueryInfo, hmalloc, hcall] at hrun
          exact .inr ⟨failure, hcall, hrun.symm⟩
      | ok info => simp [Runs, oracleQueryInfo, hmalloc, hcall] at hrun

theorem blames_getColumnInfo (stmt : OracleStmt) (column : Int32) :
    Blames (getColumnInfo env stmt column) := by
  intro w err w' delta hcontext hrun hdelta req failure hlast
  obtain ⟨ptr, w₁, w₂, hacquire, huse, hfree⟩ := runs_bracket.mp hrun
  cases ptr with
  | some info =>
      obtain ⟨_, _, -, hreturn⟩ := runs_bind.mp huse
      simp at hreturn
  | none =>
      have huse' : w₁.lastError env = err ∧ w₁ = w₂ := by
        simpa [Runs, withQueryInfo.use] using huse
      have hfree' : w₂ = w' := by simpa [Runs, oracleQueryInfoFree] using hfree
      rw [← hfree', ← huse'.2] at hdelta
      rw [← huse'.1]
      rcases runs_oracleQueryInfo_none hacquire with rfl | ⟨failure', hcall, rfl⟩
      · have hnew : delta = [.allocFailed .queryInfo] := by simpa [eq_comm] using hdelta
        rw [hnew] at hlast
        cases hlast
      · have hnew : delta = [.alloc .queryInfo w.nextBlock,
            .call (.stmtGetQueryInfo stmt.stmt (position column)) (.error failure'),
            .free w.nextBlock] := by
          simpa [hcall, eq_comm] using hdelta
        rw [hnew] at hlast
        cases hlast
        have hcontext₁ : (w.allocated env .queryInfo 128).gContext = true := hcontext
        exact (holds_called_record _ hcontext₁ hcall).repeats_lastError

/-- No step of a silent computation fails in ODPI-C right before it returns an error. -/
theorem blames_of_silent {m : Eff (World σ) (Outcome α)}
    (hsilent : ∀ w err w', Runs m w (.error err) w' → ∃ delta, w'.log = w.log ++ delta ∧
      ∀ req failure, lastStep delta ≠ some (.call req (.error failure))) :
    Blames m := by
  intro w err w' delta _ hrun hdelta req failure hlast
  obtain ⟨delta', hdelta', hnone⟩ := hsilent w err w' hrun
  obtain rfl : delta = delta' := List.append_cancel_left (hdelta.symm.trans hdelta')
  exact absurd hlast (hnone req failure)

theorem log_oracleDataBytesHex {data : DpiData} {w w' : World σ} {hex : CharPtr}
    (hrun : Runs (oracleDataBytesHex env data) w hex w') :
    ∃ event, w'.log = w.log ++ [.read .asBytes, event] ∧
      (event = .alloc .bytesHex w.nextBlock ∨ event = .allocFailed .bytesHex) := by
  let size := (data.value.asBytes.getD []).length * 2 + 1
  cases hmalloc : (env.malloc .bytesHex size w.odpi).1 with
  | true =>
      simp [Runs, oracleDataBytesHex, size, hmalloc] at hrun
      exact ⟨_, by simp [← hrun.2], .inl rfl⟩
  | false =>
      simp [Runs, oracleDataBytesHex, size, hmalloc] at hrun
      exact ⟨_, by simp [← hrun.2], .inr rfl⟩

theorem blames_raw (dataptr : DpiData) :
    Blames (decodeColumn.value env dataptr .oracleTypeRaw) := by
  refine blames_of_silent fun w err w' hrun => ?_
  obtain ⟨ptr, w₁, w₂, hacquire, huse, hrelease⟩ := runs_bracket.mp hrun
  obtain ⟨rfl, rfl⟩ := runs_pure.mp hacquire
  obtain ⟨-, rfl⟩ := runs_pure.mp hrelease
  obtain ⟨hex, w₂, hhex, hdecode⟩ := runs_bind.mp huse
  obtain rfl : w' = w₂ := by
    cases hbytes : hexDecode (fromC env hex) <;> simp [hbytes] at hdecode
    exact hdecode.2
  obtain ⟨event, hlog, hevent⟩ := log_oracleDataBytesHex hhex
  exact ⟨_, hlog, by rcases hevent with rfl | rfl <;> simp [lastStep, Event.isCleanup]⟩

theorem blames_blob (dataptr : DpiData) :
    Blames (decodeColumn.value env dataptr .oracleTypeBlob) := by
  intro w err w' delta hcontext hrun hdelta req failure hlast
  obtain ⟨ptr, w₁, w₂, hacquire, huse, hrelease⟩ := runs_bracket.mp hrun
  obtain ⟨rfl, rfl⟩ : ptr = .lob dataptr.value.asLOB ∧ w₁ = w.record (.read .asLOB) := by
    simpa [Runs, decodeColumn.acquire, oracleDataLob, eq_comm] using hacquire
  cases hlob : dataptr.value.asLOB with
  | none =>
      simp [Runs, decodeColumn.use, decodeColumn.release, oracleLobRelease, hlob] at huse hrelease
      obtain ⟨-, rfl⟩ := huse
      obtain rfl : delta = [.read .asLOB] := by simpa [← hrelease, eq_comm] using hdelta
      cases hlast
  | some lob =>
      simp [Runs, decodeColumn.release, oracleLobRelease, hlob] at hrelease
      cases hsize : (env.call (.lobGetSize lob) w.odpi).1 with
      | error failure' =>
          simp [Runs, decodeColumn.use, oracleLobSize, hlob, hsize] at huse
          obtain ⟨rfl, rfl⟩ := huse
          obtain rfl : delta = [.read .asLOB, .call (.lobGetSize lob) (.error failure'),
              .release (.lob lob)] := by
            simpa [← hrelease, hsize, eq_comm] using hdelta
          cases hlast
          have hcontext₁ : (w.record (.read .asLOB)).gContext = true := hcontext
          exact (holds_called hcontext₁ hsize).repeats_lastError
      | ok size =>
          by_cases hneg : size.toInt64 < 0
          · simp [Runs, decodeColumn.use, oracleLobSize, hlob, hsize, hneg] at huse
            obtain ⟨rfl, rfl⟩ := huse
            obtain rfl : delta = [.read .asLOB, .call (.lobGetSize lob) (.ok size),
                .release (.lob lob)] := by
              simpa [← hrelease, hsize, eq_comm] using hdelta
            cases hlast
          · simp [decodeColumn.use, oracleLobSize, hlob, Runs, hsize, hneg] at huse

theorem blames_clob (dataptr : DpiData) :
    Blames (decodeColumn.value env dataptr .oracleTypeClob) := by
  refine blames_of_silent fun w err w' hrun => ?_
  obtain ⟨ptr, w₁, w₂, hacquire, huse, hrelease⟩ := runs_bracket.mp hrun
  obtain ⟨rfl, rfl⟩ : ptr = .lob dataptr.value.asLOB ∧ w₁ = w.record (.read .asLOB) := by
    simpa [Runs, decodeColumn.acquire, oracleDataLob, eq_comm] using hacquire
  cases hlob : dataptr.value.asLOB with
  | none =>
      simp [Runs, decodeColumn.use, decodeColumn.release, oracleLobRelease, hlob] at huse hrelease
      obtain ⟨-, rfl⟩ := huse
      exact ⟨[.read .asLOB], by simp [← hrelease], by simp [lastStep, Event.isCleanup]⟩
  | some lob =>
      rw [hlob] at huse
      obtain ⟨text, w₃, -, hreturn⟩ := runs_bind.mp huse
      simp at hreturn

theorem blames_boolean (dataptr : DpiData) :
    Blames (decodeColumn.value env dataptr .oracleTypeBoolean) := by
  refine blames_of_silent fun w err w' hrun => ?_
  obtain ⟨b, w₁, hread, hcheck⟩ := runs_bind.mp hrun
  have hw₁ : w.record (.read .asBoolean) = w₁ := by
    simp [Runs, oracleDataBool] at hread
    exact hread.2
  have hw' : w' = w₁ := by
    split at hcheck <;> simp at hcheck
    exact hcheck.2
  exact ⟨[.read .asBoolean], by simp [hw', ← hw₁], by simp [lastStep, Event.isCleanup]⟩

theorem blames_value (dataptr : DpiData) (ty : OracleType) :
    Blames (decodeColumn.value env dataptr ty) := by
  cases ty with
  | oracleTypeRaw => exact blames_raw dataptr
  | oracleTypeBlob => exact blames_blob dataptr
  | oracleTypeClob => exact blames_clob dataptr
  | oracleTypeBoolean => exact blames_boolean dataptr
  | oracleTypeUnknown n =>
      refine blames_of_silent fun w err w' hrun => ⟨[], ?_, by simp⟩
      obtain ⟨-, rfl⟩ := runs_pure.mp hrun
      simp
  | _ =>
      intro w err w' delta _ hrun
      obtain ⟨_, _, -, hreturn⟩ := runs_bind.mp hrun
      simp at hreturn

theorem lastStep_ne_none {event : Event} (rest : List Event) (hevent : event.isCleanup = false) :
    lastStep (event :: rest) ≠ none := by
  simp [lastStep, hevent]

theorem lastStep_append_of_ne_none {d₁ d₂ : List Event} (h : lastStep d₂ ≠ none) :
    lastStep (d₁ ++ d₂) = lastStep d₂ := by
  rw [lastStep_append]
  exact Option.or_of_isSome (Option.isSome_iff_ne_none.mpr h)

theorem blames_cell (stmt : OracleStmt) (column : Int32) (ty : OracleType) :
    Blames (decodeColumn.cell env stmt column ty) := by
  intro w err w' delta hcontext hrun hdelta req failure hlast
  cases hcall : (env.call (.stmtGetQueryValue stmt.stmt (position column)) w.odpi).1 with
  | error failure' =>
      simp [Runs, decodeColumn.cell, oracleColumnValue, hcall] at hrun
      obtain ⟨rfl, rfl⟩ := hrun
      obtain rfl : delta = [.call (.stmtGetQueryValue stmt.stmt (position column))
          (.error failure')] := by
        simpa [hcall, eq_comm] using hdelta
      cases hlast
      exact (holds_called hcontext hcall).repeats_lastError
  | ok data =>
      obtain ⟨native, data⟩ := data
      let w₁ := w.called env (.stmtGetQueryValue stmt.stmt (position column))
      by_cases hnull : oracleDataIsNull data = 0
      · have hvalue : Runs (decodeColumn.value env data ty) w₁ (.error err) w' := by
          simpa [Runs, decodeColumn.cell, oracleColumnValue, hcall, hnull] using hrun
        obtain ⟨⟨delta', hdelta'⟩, -⟩ := (grows_value data ty).of_runs hvalue
        have hsplit : delta = [.call (.stmtGetQueryValue stmt.stmt (position column))
            (.ok (native, data))] ++ delta' := by
          rw [hdelta', World.called_log, hcall] at hdelta
          simpa [eq_comm] using hdelta
        rw [hsplit] at hlast
        by_cases hempty : lastStep delta' = none
        · rw [lastStep_append, hempty] at hlast
          cases hlast
        · rw [lastStep_append_of_ne_none hempty] at hlast
          exact blames_value data ty w₁ err w' delta' hcontext hvalue hdelta' req failure hlast
      · simp [Runs, decodeColumn.cell, oracleColumnValue, hcall, hnull] at hrun

/-- An error of the continuation comes after a step of its own. -/
def Steps (m : Eff (World σ) (Outcome α)) : Prop :=
  ∀ w err w', Runs m w (.error err) w' → ∃ delta, w'.log = w.log ++ delta ∧ lastStep delta ≠ none

theorem Starts.steps {m : Eff (World σ) (Outcome α)} (hm : Starts m) : Steps m := by
  intro w err w' hrun
  obtain ⟨event, rest, hlog, hevent⟩ := hm _ _ _ hrun
  exact ⟨_, hlog, lastStep_ne_none rest hevent⟩

theorem Steps.andThen {m : Eff (World σ) (Outcome α)} {f : α → Eff (World σ) (Outcome β)}
    (hm : Steps m) (hgrows : Grows m) (hf : ∀ a, Steps (f a)) : Steps (andThen m f) := by
  intro w err w' hrun
  rcases runs_andThen.mp hrun with ⟨err', hfirst, heq⟩ | ⟨a, w₁, hfirst, hrest⟩
  · cases heq
    exact hm _ _ _ hfirst
  · obtain ⟨⟨d₁, hd₁⟩, -⟩ := hgrows.of_runs hfirst
    obtain ⟨d₂, hd₂, hmain⟩ := hf a _ _ _ hrest
    exact ⟨d₁ ++ d₂, by simp [hd₂, hd₁], by rwa [lastStep_append_of_ne_none hmain]⟩

theorem Blames.andThen {m : Eff (World σ) (Outcome α)} {f : α → Eff (World σ) (Outcome β)}
    (hm : Blames m) (hgrows : Grows m) (hsteps : ∀ a, Steps (f a)) (hf : ∀ a, Blames (f a)) :
    Blames (andThen m f) := by
  intro w err w' delta hcontext hrun hdelta req failure hlast
  rcases runs_andThen.mp hrun with ⟨err', hfirst, heq⟩ | ⟨a, w₁, hfirst, hrest⟩
  · cases heq
    exact hm w err w' delta hcontext hfirst hdelta req failure hlast
  · obtain ⟨⟨d₁, hd₁⟩, hcontext₁⟩ := hgrows.of_runs hfirst
    obtain ⟨d₂, hd₂, hmain⟩ := hsteps a w₁ err w' hrest
    obtain rfl : delta = d₁ ++ d₂ := by
      apply List.append_cancel_left (hdelta.symm.trans _)
      simp [hd₂, hd₁]
    rw [lastStep_append_of_ne_none hmain] at hlast
    exact hf a w₁ err w' d₂ (hcontext₁ hcontext) hrest hd₂ req failure hlast

theorem blames_decodeColumn (stmt : OracleStmt) (column : Int32) :
    Blames (decodeColumn env stmt column) := by
  rw [decodeColumn_eq]
  exact (blames_getColumnInfo _ _).andThen
    (preserves_getColumnInfo (follows_extends env) trivial _ _)
    (fun _ => (starts_cell _ _ _).steps) fun _ => blames_cell _ _ _

theorem steps_go (stmt : Statement) (count index : Int32) (acc : List OracleValue) :
    Steps (fetchRow.go env stmt count index acc) := by
  induction index, acc using fetchRow.go.induct count with
  | case1 index acc hdone =>
      rw [fetchRow.go_done env hdone]
      intro w err w' hrun
      simp at hrun
  | case2 index acc hnext ih =>
      rw [fetchRow.go_next env (Int32.not_le.mp hnext)]
      exact (starts_decodeColumn _ _).steps.andThen (grows_decodeColumn _ _) ih

theorem blames_go (stmt : Statement) (count index : Int32) (acc : List OracleValue) :
    Blames (fetchRow.go env stmt count index acc) := by
  induction index, acc using fetchRow.go.induct count with
  | case1 index acc hdone =>
      rw [fetchRow.go_done env hdone]
      intro w err w' delta _ hrun
      simp at hrun
  | case2 index acc hnext ih =>
      rw [fetchRow.go_next env (Int32.not_le.mp hnext)]
      exact (blames_decodeColumn _ _).andThen (grows_decodeColumn _ _)
        (fun _ => steps_go _ _ _ _) ih

theorem runs_oracleFetch {stmt : OracleStmt} {w w' : World σ} {rc : Int32}
    (hrun : Runs (oracleFetch env stmt) w rc w') :
    let w₁ := w.called env (.stmtFetch stmt.stmt)
    (∃ failure, (env.call (.stmtFetch stmt.stmt) w.odpi).1 = .error failure ∧ rc = -1 ∧
        w' = w₁.capturedLast) ∨
      ∃ found, (env.call (.stmtFetch stmt.stmt) w.odpi).1 = .ok found ∧
        rc = (if found then 1 else 0) ∧ w' = w₁ := by
  cases hcall : (env.call (.stmtFetch stmt.stmt) w.odpi).1 with
  | error failure =>
      simp [Runs, oracleFetch, hcall] at hrun
      exact .inl ⟨failure, rfl, hrun.1.symm, hrun.2.symm⟩
  | ok found =>
      simp [Runs, oracleFetch, hcall] at hrun
      exact .inr ⟨found, rfl, hrun.1.symm, hrun.2.symm⟩

theorem blames_fetchRow (stmt : Statement) : Blames (fetchRow env stmt) := by
  intro w err w' delta hcontext hrun hdelta req failure hlast
  obtain ⟨rc, w₁, hfetch, hrest⟩ := runs_bind.mp hrun
  rcases runs_oracleFetch hfetch with ⟨failure', hcall, rfl, rfl⟩ | ⟨found, hcall, rfl, rfl⟩
  · simp [Runs] at hrest
    obtain ⟨rfl, rfl⟩ := hrest
    obtain rfl : delta = [.call (.stmtFetch stmt.ptr.stmt) (.error failure')] := by
      simpa [hcall, eq_comm] using hdelta
    cases hlast
    exact (holds_called hcontext hcall).repeats_lastError
  · cases found with
    | false => simp at hrest
    | true =>
        obtain ⟨count, w₂, hcount, hrest⟩ := runs_bind.mp hrest
        obtain ⟨row, w₃, hgo, hreturn⟩ := runs_bind.mp hrest
        obtain ⟨⟨d₁, hd₁⟩, hcontext₁⟩ :=
          (preserves_oracleColumnCount (follows_extends env) trivial stmt.ptr).of_runs hcount
        cases row with
        | ok values => simp at hreturn
        | error err' =>
            obtain ⟨heq, rfl⟩ := runs_pure.mp hreturn
            cases heq
            obtain ⟨d₂, hd₂, hmain⟩ := steps_go _ _ _ _ _ _ _ hgo
            obtain rfl : delta =
                ([.call (.stmtFetch stmt.ptr.stmt) (.ok true)] ++ d₁) ++ d₂ := by
              apply List.append_cancel_left (hdelta.symm.trans _)
              simp [hd₂, hd₁, hcall]
            rw [lastStep_append_of_ne_none hmain] at hlast
            exact blames_go _ _ _ _ w₂ err w' d₂ (hcontext₁ hcontext) hgo hd₂ req failure hlast

end Blames

section Reports

/-- A failing status leaves in the globals the failure of the last step. -/
def Reports (m : Eff (World σ) Int32) : Prop :=
  ∀ w rc w' delta, w.gContext = true → Runs m w rc w' → rc ≠ 0 → w'.log = w.log ++ delta →
    ∀ req failure, lastStep delta = some (.call req (.error failure)) → w'.Holds failure

theorem Reports.finish {m : Eff (World σ) Int32} (hm : Reports m) :
    Blames (do
      let rc ← m
      finish env rc) := by
  intro w err w' delta hcontext hrun hdelta req failure hlast
  obtain ⟨rc, w₁, hfirst, hrest⟩ := runs_bind.mp hrun
  by_cases hrc : rc = 0
  · simp [Runs, hrc] at hrest
  · simp [Runs, hrc] at hrest
    obtain ⟨rfl, rfl⟩ := hrest
    exact (hm _ _ _ delta hcontext hfirst hrc hdelta req failure hlast).repeats_lastError

theorem reports_of_call (env : Env σ) (req : Req) {m : Eff (World σ) Int32}
    (hm : ∀ w rc w', Runs m w rc w' → rc ≠ 0 →
      w' = (w.called env req).capturedLast ∧ ∃ failure, (env.call req w.odpi).1 = .error failure) :
    Reports m := by
  intro w rc w' delta hcontext hrun hrc hdelta req' failure hlast
  obtain ⟨rfl, failure', hcall⟩ := hm _ _ _ hrun hrc
  obtain rfl : delta = [.call req (.error failure')] := by simpa [hcall, eq_comm] using hdelta
  cases hlast
  exact holds_called hcontext hcall

theorem reports_oracleCommit (conn : DpiConn) : Reports (oracleCommit env conn) := by
  refine reports_of_call env (.connCommit conn) fun w rc w' hrun hrc => ?_
  cases hcall : (env.call (.connCommit conn) w.odpi).1 with
  | error failure =>
      simp [Runs, oracleCommit, hcall] at hrun
      exact ⟨hrun.2.symm, failure, rfl⟩
  | ok reply =>
      simp [Runs, oracleCommit, hcall] at hrun
      exact absurd hrun.1.symm hrc

theorem reports_oracleRollback (conn : DpiConn) : Reports (oracleRollback env conn) := by
  refine reports_of_call env (.connRollback conn) fun w rc w' hrun hrc => ?_
  cases hcall : (env.call (.connRollback conn) w.odpi).1 with
  | error failure =>
      simp [Runs, oracleRollback, hcall] at hrun
      exact ⟨hrun.2.symm, failure, rfl⟩
  | ok reply =>
      simp [Runs, oracleRollback, hcall] at hrun
      exact absurd hrun.1.symm hrc

theorem reports_oracleExecuteStmt (stmt : OracleStmt) :
    Reports (oracleExecuteStmt env stmt) := by
  refine reports_of_call env (.stmtExecute stmt.stmt) fun w rc w' hrun hrc => ?_
  cases hcall : (env.call (.stmtExecute stmt.stmt) w.odpi).1 with
  | error failure =>
      simp [Runs, oracleExecuteStmt, hcall] at hrun
      exact ⟨hrun.2.symm, failure, rfl⟩
  | ok reply =>
      simp [Runs, oracleExecuteStmt, hcall] at hrun
      exact absurd hrun.1.symm hrc

theorem reports_oracleBindNative (stmt : OracleStmt) (name : List UInt8)
    (native : DpiNativeTypeNum) (data : DpiData) :
    Reports (oracleBindNative env stmt name native data) := by
  refine reports_of_call env (.stmtBindValueByName stmt.stmt (counted name) native data)
    fun w rc w' hrun hrc => ?_
  cases hcall : (env.call (.stmtBindValueByName stmt.stmt (counted name) native data) w.odpi).1 with
  | error failure =>
      simp [Runs, oracleBindNative, hcall] at hrun
      exact ⟨hrun.2.symm, failure, rfl⟩
  | ok reply =>
      simp [Runs, oracleBindNative, hcall] at hrun
      exact absurd hrun.1.symm hrc

theorem reports_oracleBindTyped (stmt : OracleStmt) (name : List UInt8)
    (oracleType : DpiOracleTypeNum) (native : DpiNativeTypeNum) (data : DpiData) :
    Reports (oracleBindTyped env stmt name oracleType native data) := by
  intro w rc w' delta hcontext hrun hrc hdelta req failure hlast
  cases hnew : (env.call (.connNewVar stmt.conn oracleType native) w.odpi).1 with
  | error failure' =>
      simp [Runs, oracleBindTyped, hnew] at hrun
      obtain ⟨-, rfl⟩ := hrun
      obtain rfl : delta = [.call (.connNewVar stmt.conn oracleType native) (.error failure')] := by
        simpa [hnew, eq_comm] using hdelta
      cases hlast
      exact holds_called hcontext hnew
  | ok var =>
      obtain ⟨w₁, hw₁⟩ : ∃ w₁, storeVar env var data
          (w.called env (.connNewVar stmt.conn oracleType native)) = some ((), w₁) := ⟨_, rfl⟩
      have hlog₁ : w₁.log =
          w.log ++ [.call (.connNewVar stmt.conn oracleType native) (.ok var)] := by
        cases hw₁
        simp [hnew]
      have hcontext₁ : w₁.gContext = true := by
        cases hw₁
        exact hcontext
      cases hbind : (env.call (.stmtBindByName stmt.stmt (counted name) var) w₁.odpi).1 with
      | error failure' =>
          simp [Runs, oracleBindTyped, hnew, hw₁, hbind] at hrun
          obtain ⟨-, rfl⟩ := hrun
          obtain rfl : delta = [.call (.connNewVar stmt.conn oracleType native) (.ok var),
              .call (.stmtBindByName stmt.stmt (counted name) var) (.error failure'),
              .release (.var var)] := by
            simpa [hlog₁, hbind, eq_comm] using hdelta
          cases hlast
          exact (holds_called hcontext₁ hbind).released _
      | ok reply =>
          simp [Runs, oracleBindTyped, hnew, hw₁, hbind] at hrun
          exact absurd hrun.1.symm hrc

theorem blames_bindOne (stmt : Statement) (param : BindParameter) :
    Blames (bindOne env stmt param) := by
  refine Reports.finish ?_
  cases param.value with
  | oracleBinaryFloat f => exact reports_oracleBindTyped _ _ _ _ _
  | oracleBinaryDouble d => exact reports_oracleBindTyped _ _ _ _ _
  | _ => exact reports_oracleBindNative _ _ _ _

theorem blames_prepare (conn : Connection) (sql : String) : Blames (prepare env conn sql) := by
  intro w err w' delta hcontext hrun hdelta req failure hlast
  cases hmalloc : (env.malloc .stmt 16 w.odpi).1 with
  | false =>
      simp [Runs, prepare, oraclePrepareStmt, hmalloc] at hrun
      obtain ⟨-, rfl⟩ := hrun
      obtain rfl : delta = [.allocFailed .stmt] := by simpa [eq_comm] using hdelta
      cases hlast
  | true =>
      let w₁ := w.allocated env .stmt 16
      cases hcall : (env.call (.connPrepareStmt conn.ptr (counted (toC sql))) w₁.odpi).1 with
      | error failure' =>
          simp [Runs, prepare, oraclePrepareStmt, hmalloc, w₁, hcall] at hrun
          obtain ⟨rfl, rfl⟩ := hrun
          obtain rfl : delta = [.alloc .stmt w.nextBlock,
              .call (.connPrepareStmt conn.ptr (counted (toC sql))) (.error failure'),
              .free w.nextBlock] := by
            simpa [w₁, hcall, eq_comm] using hdelta
          cases hlast
          have hcontext₁ : w₁.gContext = true := hcontext
          exact ((holds_called hcontext₁ hcall).record _).repeats_lastError
      | ok stmt => simp [Runs, prepare, oraclePrepareStmt, hmalloc, w₁, hcall] at hrun

end Reports

end IdrisOracle
