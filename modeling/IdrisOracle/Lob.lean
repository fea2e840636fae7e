import IdrisOracle.Log
import IdrisOracle.RefCount

/-! The references to LOBs that a fetch variable keeps and the decoder gives up. -/

namespace IdrisOracle

open Effect RefCount

variable {σ : Type} {env : Env σ}

/-- The fetch variables of ODPI-C as the owner of the LOBs in their row buffers. -/
structure LobEnv (env : Env σ) where
  ledger : σ → Ledger DpiLob
  columnType : UInt32 → DpiOracleTypeNum
  called : ∀ req s, req.group ≠ .fetch → ledger (env.call req s).2 = ledger s
  fetched : ∀ stmt s, ledger (env.call (.stmtFetch stmt) s).2 = ledger s ∨
    ∃ fresh, fresh.Nodup ∧ ledger (env.call (.stmtFetch stmt) s).2 = (ledger s).refill fresh
  stored : ∀ var data s, ledger (env.storeVar var data s) = ledger s
  allocated : ∀ kind size s, ledger (env.malloc kind size s).2 = ledger s
  releasedConn : ∀ conn s, ledger (env.release (.conn conn) s) = ledger s
  releasedVar : ∀ var s, ledger (env.release (.var var) s) = ledger s
  releasedStmt : ∀ stmt s, ledger (env.release (.stmt stmt) s) = (ledger s).clear
  releasedLob : ∀ lob s, ledger (env.release (.lob lob) s) = (ledger s).release lob
  described : ∀ stmt pos s info, (env.call (.stmtGetQueryInfo stmt pos) s).1 = .ok info →
    info.typeInfo.oracleTypeNum = columnType pos
  valued : ∀ stmt pos s native data, (ledger s).sound = true →
    (env.call (.stmtGetQueryValue stmt pos) s).1 = .ok (native, data) → data.isNull = 0 →
    (fromOracleTypeNum (columnType pos)).IsLob →
    ∃ lob ∈ (ledger s).owned, data.value.asLOB = some lob

namespace LobEnv

variable (L : LobEnv env)

/-- ODPI-C hands out a value of a CLOB or BLOB column that is not NULL. -/
def LobCell : Event → Prop
  | .call (.stmtGetQueryValue _ pos) (.ok (_, data)) =>
      data.isNull = 0 ∧ (fromOracleTypeNum (L.columnType pos)).IsLob
  | _ => False

/-- What a part of a run does to the references, told by the LOBs it is handed. -/
def Tracks (w w' : World σ) : Prop :=
  (L.ledger w.odpi).WellFormed →
    ∃ delta, w'.log = w.log ++ delta ∧ (L.ledger w'.odpi).WellFormed ∧
      ((L.ledger w'.odpi).sound = true ↔
        (L.ledger w.odpi).sound = true ∧ ∀ event ∈ delta, ¬ L.LobCell event)

variable {L}

theorem Tracks.trans (u v w : World σ) (huv : L.Tracks u v) (hvw : L.Tracks v w) :
    L.Tracks u w := by
  intro hwf
  obtain ⟨d₁, hlog₁, hwf₁, hsound₁⟩ := huv hwf
  obtain ⟨d₂, hlog₂, hwf₂, hsound₂⟩ := hvw hwf₁
  refine ⟨d₁ ++ d₂, by simp [hlog₂, hlog₁], hwf₂, ?_⟩
  simp only [hsound₂, hsound₁, List.forall_mem_append, and_assoc]

/-- A step that leaves the references alone. -/
theorem tracks_of_same {w w' : World σ} {delta : List Event} (hlog : w'.log = w.log ++ delta)
    (hsame : L.ledger w'.odpi = L.ledger w.odpi) (hdelta : ∀ event ∈ delta, ¬ L.LobCell event) :
    L.Tracks w w' :=
  fun hwf => ⟨delta, hlog, hsame ▸ hwf, by simpa [hsame] using fun _ => hdelta⟩

/-- A step in which the fetch variable gives up or replaces what it has. -/
theorem tracks_of_sound {w w' : World σ} {event : Event} (hlog : w'.log = w.log ++ [event])
    (hevent : ¬ L.LobCell event) (hwf : (L.ledger w'.odpi).WellFormed)
    (hsound : (L.ledger w.odpi).WellFormed →
      (L.ledger w'.odpi).sound = (L.ledger w.odpi).sound) :
    L.Tracks w w' :=
  fun hstart => ⟨[event], hlog, hwf, by simp [hsound hstart, hevent]⟩

theorem not_lobCell_of_group {req : Req} {result : Except DpiError req.Resp}
    (h : req.group ≠ .value) : ¬ L.LobCell (.call req result) := by
  cases req <;> first
    | exact absurd rfl h
    | exact id

theorem tracks_fetched (stmt : DpiStmt) (w : World σ) :
    L.Tracks w (w.called env (.stmtFetch stmt)) := by
  rcases L.fetched stmt w.odpi with hsame | ⟨fresh, hfresh, hrefill⟩
  · refine tracks_of_same rfl hsame ?_
    simp [LobCell]
  · refine tracks_of_sound rfl id ?_ fun hwf => ?_
    · rw [World.called_odpi, hrefill]
      exact Ledger.wellFormed_refill hfresh
    · rw [World.called_odpi, hrefill]
      exact Ledger.sound_refill hwf fresh

theorem tracks_called {req : Req} (w : World σ) (h : req.group ≠ .value) :
    L.Tracks w (w.called env req) := by
  by_cases hfetch : req.group = .fetch
  · cases req <;> cases hfetch
    exact tracks_fetched _ w
  · refine tracks_of_same rfl (L.called req w.odpi hfetch) ?_
    intro event hevent
    obtain rfl := List.mem_singleton.mp hevent
    exact not_lobCell_of_group h

theorem tracks_released {handle : Handle} (w : World σ) (h : handle.kind ≠ .lob) :
    L.Tracks w (w.released env handle) := by
  have hevent : ∀ event ∈ [Event.release handle], ¬ L.LobCell event := by simp [LobCell]
  cases handle with
  | lob lob => exact absurd rfl h
  | conn conn => exact tracks_of_same rfl (L.releasedConn conn w.odpi) hevent
  | var var => exact tracks_of_same rfl (L.releasedVar var w.odpi) hevent
  | stmt stmt =>
      have hclear : L.ledger (w.released env (.stmt stmt)).odpi = (L.ledger w.odpi).clear :=
        L.releasedStmt stmt w.odpi
      refine tracks_of_sound rfl id ?_ fun hwf => ?_
      · rw [hclear]
        exact Ledger.wellFormed_clear
      · rw [hclear]
        exact Ledger.sound_clear hwf

variable (L)

/-- Everything but a fetched value and the release of a LOB. -/
theorem follows_tracks : Follows env (· ≠ .value) (· ≠ .lob) L.Tracks where
  refl w := tracks_of_same (List.append_nil _).symm rfl (by simp)
  trans := Tracks.trans
  called _ w h := tracks_called w h
  released _ w h := tracks_released w h
  stored var data w := tracks_of_same (List.append_nil _).symm (L.stored var data w.odpi) (by simp)
  allocated kind size w := tracks_of_same rfl (L.allocated kind size w.odpi) (by simp [LobCell])
  refused kind size w _ := tracks_of_same rfl (L.allocated kind size w.odpi) (by simp [LobCell])
  freed _ _ := tracks_of_same rfl rfl (by simp [LobCell])
  read _ _ := tracks_of_same rfl rfl (by simp [LobCell])
  captured _ _ := tracks_of_same (List.append_nil _).symm rfl (by simp)
  ready _ := tracks_of_same (List.append_nil _).symm rfl (by simp)

/-- Reading a LOB leaves the references alone. -/
theorem follows_ledger : Follows env (· ≠ .fetch) (fun _ => False)
    fun w w' => L.ledger w'.odpi = L.ledger w.odpi where
  refl _ := rfl
  trans _ _ _ huv hvw := hvw.trans huv
  called req w h := L.called req w.odpi h
  released _ _ h := h.elim
  stored var data w := L.stored var data w.odpi
  allocated kind size w := L.allocated kind size w.odpi
  refused kind size w _ := L.allocated kind size w.odpi
  freed _ _ := rfl
  read _ _ := rfl
  captured _ _ := rfl
  ready _ := rfl

variable {L}

/-- The end of the bracket leaves no reference to a LOB the fetch variable still has. -/
theorem unsound_release {w w' : World σ} {lob : Option DpiLob} {ty : OracleType} (hty : ty.IsLob)
    (hwf : (L.ledger w.odpi).WellFormed)
    (hlob : (L.ledger w.odpi).sound = true → ∃ x ∈ (L.ledger w.odpi).owned, lob = some x)
    (hrun : Runs (decodeColumn.release env (.lob lob) ty) w () w') :
    (L.ledger w'.odpi).sound = false := by
  have hrelease : Runs (oracleLobRelease env lob) w () w' := by
    rcases hty with rfl | rfl <;> exact hrun
  cases hsound : (L.ledger w.odpi).sound with
  | true =>
      obtain ⟨x, hx, rfl⟩ := hlob hsound
      cases hrelease
      have hledger := L.releasedLob x w.odpi
      exact (congrArg Ledger.sound hledger).trans (Ledger.unsound_release_owned hwf hx)
  | false =>
      cases lob with
      | none =>
          cases hrelease
          exact hsound
      | some x =>
          cases hrelease
          have hledger := L.releasedLob x w.odpi
          exact (congrArg Ledger.sound hledger).trans (Ledger.unsound_release hsound)

theorem unsound_lobBracket {w w' : World σ} {data : DpiData} {ty : OracleType}
    {result : Outcome OracleValue} (hty : ty.IsLob) (hwf : (L.ledger w.odpi).WellFormed)
    (hlob : (L.ledger w.odpi).sound = true →
      ∃ lob ∈ (L.ledger w.odpi).owned, data.value.asLOB = some lob)
    (hrun : Runs (decodeColumn.value env data ty) w result w') :
    (L.ledger w'.odpi).sound = false := by
  have hbracket : Runs (decodeColumn.withDataPtrAndOracleType env data ty) w result w' := by
    rcases hty with rfl | rfl <;> exact hrun
  obtain ⟨ptr, w₁, w₂, hacquire, huse, hrelease⟩ := runs_bracket.mp hbracket
  have hfirst : ptr = .lob data.value.asLOB ∧ w₁ = w.record (.read .asLOB) := by
    rcases hty with rfl | rfl <;> (cases hacquire; exact ⟨rfl, rfl⟩)
  obtain ⟨rfl, rfl⟩ := hfirst
  have hsame : L.ledger w₂.odpi = L.ledger (w.record (.read .asLOB)).odpi :=
    (preserves_use L.follows_ledger (by simp) _ _).of_runs huse
  exact unsound_release hty (hsame ▸ hwf) (hsame ▸ hlob) hrelease

/-- A value that is not NULL upsets the references if and only if it is a LOB. -/
theorem tracks_value {w w' : World σ} {stmt : DpiStmt} {pos : UInt32} {native : DpiNativeTypeNum}
    {data : DpiData} {result : Outcome OracleValue}
    (hcall : (env.call (.stmtGetQueryValue stmt pos) w.odpi).1 = .ok (native, data))
    (hnull : data.isNull = 0)
    (hrun : Runs (decodeColumn.value env data (fromOracleTypeNum (L.columnType pos)))
      (w.called env (.stmtGetQueryValue stmt pos)) result w') :
    L.Tracks w w' := by
  let req := Req.stmtGetQueryValue stmt pos
  have hsame : L.ledger (w.called env req).odpi = L.ledger w.odpi := L.called req w.odpi nofun
  by_cases hty : (fromOracleTypeNum (L.columnType pos)).IsLob
  · intro hwf
    obtain ⟨⟨delta, hdelta⟩, -⟩ := (grows_value data _).of_runs hrun
    have hunsound : (L.ledger w'.odpi).sound = false := by
      refine unsound_lobBracket hty (hsame ▸ hwf) (fun hsound => ?_) hrun
      rw [hsame] at hsound ⊢
      exact L.valued stmt pos w.odpi native data hsound hcall hnull hty
    have hcell : L.LobCell (.call req (.ok (native, data))) := ⟨hnull, hty⟩
    refine ⟨.call req (.ok (native, data)) :: delta, by simp [hdelta, hcall, req], ?_, ?_⟩
    · intro hsound
      rw [hunsound] at hsound
      cases hsound
    · simp [hunsound, hcell]
  · have hcalled : L.Tracks w (w.called env req) := by
      refine tracks_of_same rfl hsame ?_
      simp [LobCell, hcall, hty, req]
    have hvalue : L.Tracks (w.called env req) w' :=
      (preserves_value L.follows_tracks (by simp) (fun h => absurd h hty) data).of_runs hrun
    exact hcalled.trans _ _ _ hvalue

variable (L)

theorem tracks_cell {w w' : World σ} {stmt : OracleStmt} {column : Int32}
    {result : Outcome OracleValue}
    (hrun : Runs (decodeColumn.cell env stmt column
      (fromOracleTypeNum (L.columnType (position column)))) w result w') :
    L.Tracks w w' := by
  let req := Req.stmtGetQueryValue stmt.stmt (position column)
  have hsame : L.ledger (w.called env req).odpi = L.ledger w.odpi := L.called req w.odpi nofun
  obtain ⟨data, w₁, hvalue, hrest⟩ := runs_bind.mp hrun
  rcases runs_oracleColumnValue env hvalue with ⟨failure, hcall, rfl, rfl⟩ |
    ⟨native, data, hcall, rfl, rfl⟩
  · cases hrest
    have hcaptured : L.Tracks (w.called env req) (w.called env req).capturedLast :=
      (preserves_oracleCaptureLastError L.follows_tracks).of_runs (oracleCaptureLastError_apply _)
    refine Tracks.trans _ _ _ (tracks_of_same rfl hsame ?_) hcaptured
    simp [LobCell, hcall, req]
  · by_cases hnull : data.isNull = 0
    · have hdecode : Runs (decodeColumn.value env data
          (fromOracleTypeNum (L.columnType (position column)))) (w.called env req) result w' := by
        simpa [oracleDataIsNull, hnull] using hrest
      exact tracks_value hcall hnull hdecode
    · have hend : w' = w.called env req := by
        simp [oracleDataIsNull, hnull] at hrest
        exact hrest.2
      rw [hend]
      refine tracks_of_same rfl hsame ?_
      simp [LobCell, hcall, hnull, req]

theorem preserves_decodeColumn (stmt : OracleStmt) (column : Int32) :
    Preserves L.Tracks (decodeColumn env stmt column) := by
  intro w
  have hgrows : Grows (decodeColumn env stmt column) := grows_decodeColumn stmt column
  obtain ⟨result, w', hrun, -⟩ := hgrows w
  refine ⟨result, w', hrun, ?_⟩
  rw [decodeColumn_eq] at hrun
  have hinfo := preserves_getColumnInfo L.follows_tracks (by simp) stmt column
  rcases runs_andThen.mp hrun with ⟨err, hfirst, -⟩ | ⟨info, w₁, hfirst, hcell⟩
  · exact hinfo.of_runs hfirst
  · obtain ⟨s, reply, hcall, htype⟩ := runs_getColumnInfo_ok env hfirst
    rw [htype, L.described _ _ _ _ hcall] at hcell
    exact (hinfo.of_runs hfirst).trans _ _ _ (L.tracks_cell hcell)

theorem preserves_fetchRow (stmt : Statement) : Preserves L.Tracks (fetchRow env stmt) :=
  IdrisOracle.preserves_fetchRow L.follows_tracks (by simp) (by simp) stmt fun column =>
    L.preserves_decodeColumn stmt.ptr column

theorem tracks_queryRaw {conn : Connection} {sql : String} {params : List BindParameter}
    {fuel : Nat} {result : Outcome (List (List OracleValue))} {w w' : World σ}
    (hrun : Runs (queryRaw env fuel conn sql params) w result w') : L.Tracks w w' :=
  follows_queryRaw L.follows_tracks (by simp) (by simp) (by simp) (by simp) (by simp)
    L.preserves_fetchRow hrun

end LobEnv

end IdrisOracle
