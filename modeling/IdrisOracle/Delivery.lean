import IdrisOracle.Listing

/-! A query delivers the rows of the cursor, all of them and in order. -/

namespace IdrisOracle

open Effect

variable {σ : Type} {env : Env σ} {C : ResultSet env} {stmt : Statement}
  {row : List DriverCell} {rest : List (List DriverCell)} {w w' : World σ}

section Growth

theorem Decodes.extends {indices : List Int32} {r : Outcome (List OracleValue)}
    (h : Decodes env stmt indices w r w') : Extends w w' := by
  induction h with
  | done => exact Extends.refl _
  | fails hdecode => exact (grows_decodeColumn _ _).of_runs hdecode
  | next hdecode _ ih => exact Extends.trans _ _ _ ((grows_decodeColumn _ _).of_runs hdecode) ih

theorem extends_oracleFetch {rc : Int32} (h : Runs (oracleFetch env stmt.ptr) w rc w') :
    Extends w w' :=
  (preserves_oracleFetch (follows_extends env) trivial stmt.ptr).of_runs h

theorem extends_oracleColumnCount {count : Int32}
    (h : Runs (oracleColumnCount env stmt.ptr) w count w') : Extends w w' :=
  (preserves_oracleColumnCount (follows_extends env) trivial stmt.ptr).of_runs h

theorem Scan.extends {r : Outcome (List (List OracleValue))} (h : Scan env stmt w r w') :
    Extends w w' := by
  induction h with
  | done hfetch => exact extends_oracleFetch hfetch
  | fetchFails hfetch _ => exact extends_oracleFetch hfetch
  | columnFails hfetch _ hcount hrow =>
      exact Extends.trans _ _ _ (extends_oracleFetch hfetch)
        (Extends.trans _ _ _ (extends_oracleColumnCount hcount) hrow.extends)
  | row hfetch _ hcount hrow _ ih =>
      exact Extends.trans _ _ _ (extends_oracleFetch hfetch) (Extends.trans _ _ _
        (extends_oracleColumnCount hcount) (Extends.trans _ _ _ hrow.extends ih))

end Growth

section Rows

/-- Without a failure the columns of a row give its values. -/
theorem Decodes.values {indices : List Int32} {cells : List DriverCell}
    {r : Outcome (List OracleValue)} (h : Decodes env stmt indices w r w')
    (hcells : List.Forall₂ (fun index cell => row[(position index).toNat - 1]? = some cell)
      indices cells)
    (hsupported : ∀ cell ∈ row, cell.Supported) (hw : C.At stmt.ptr.stmt row rest w)
    (hclean : NoFailure w w') :
    r = .ok (cells.map DriverCell.value) ∧ C.At stmt.ptr.stmt row rest w' := by
  induction h generalizing cells with
  | done =>
      cases hcells
      exact ⟨rfl, hw⟩
  | fails hdecode =>
      cases hcells with
      | cons hcell _ =>
          have hvalue := (cleanly_decodeColumn hcell
            (hsupported _ (List.mem_of_getElem? hcell))).spec _ _ _ hw hdecode hclean
          cases hvalue.1
  | next hdecode hrest ih =>
      cases hcells with
      | cons hcell hcells =>
          have hsplit := hclean.split ((grows_decodeColumn _ _).of_runs hdecode) hrest.extends
          obtain ⟨hvalue, hw₁⟩ := (cleanly_decodeColumn hcell
            (hsupported _ (List.mem_of_getElem? hcell))).spec _ _ _ hw hdecode hsplit.1
          obtain ⟨rfl, hw'⟩ := ih hcells hw₁ hsplit.2
          cases hvalue
          exact ⟨rfl, hw'⟩

theorem cells_columnIndices {count : Int32} (hcount : count.toInt = row.length) :
    List.Forall₂ (fun index cell => row[(position index).toNat - 1]? = some cell)
      (columnIndices count) row := by
  have hlength : (columnIndices count).length = row.length := by
    rw [columnIndices, List.length_map, List.length_range, hcount, Int.toNat_natCast]
  refine List.forall₂_iff_get.mpr ⟨hlength, fun i hi hrow => ?_⟩
  have hlt : i < count.toInt.toNat := by omega
  have hsmall := count.toInt_lt
  have hindex : (Int32.ofNat i).toInt = i := Int32.toInt_ofNat_of_lt (by omega)
  have hget : (columnIndices count).get ⟨i, hi⟩ = Int32.ofNat i := by
    simp [columnIndices]
  have hposition : (position (Int32.ofNat i)).toNat = i + 1 := by
    have htoNat := toNat_position (by omega) ((ofNat_lt_count hlt.le).mpr hlt)
    omega
  rw [hget, hposition, Nat.add_sub_cancel, List.getElem?_eq_getElem hrow]
  rfl

theorem cleanly_oracleColumnCount (hlength : row.length < 2 ^ 31) :
    Cleanly (C.At stmt.ptr.stmt row rest) (oracleColumnCount env stmt.ptr) fun count w =>
      count.toInt = row.length ∧ C.At stmt.ptr.stmt row rest w := by
  refine Cleanly.call (by exact trivial) (fun r => ?_) fun count s hs hcall => ?_
  · cases r with
    | error err => exact preserves_captured (follows_extends env) _
    | ok count => exact grows_pure _
  · have hcount : count.toNat = row.length := hs ▸ C.counted _ _ _ hcall
    refine Cleanly.pure fun w hw => ⟨?_, hw⟩
    rw [toInt_toInt32, hcount]
    exact Int.bmod_eq_of_le (by omega) (by omega)

/-- Without a failure a fetch takes the next row, if there is one. -/
theorem fetch_of_noFailure {rc : Int32} (C : ResultSet env)
    (hrun : Runs (oracleFetch env stmt.ptr) w rc w') (hclean : NoFailure w w') :
    (rc = 0 ∧ C.rows stmt.ptr.stmt w.odpi = []) ∨
      rc = 1 ∧ ∃ row rest, C.rows stmt.ptr.stmt w.odpi = row :: rest ∧
        C.At stmt.ptr.stmt row rest w' := by
  cases hcall : (env.call (.stmtFetch stmt.ptr.stmt) w.odpi).1 with
  | error failure =>
      obtain ⟨delta, hlog, hdelta⟩ := hclean
      simp [Runs, oracleFetch, hcall] at hrun
      obtain ⟨-, rfl⟩ := hrun
      have hmem : .call (.stmtFetch stmt.ptr.stmt) (.error failure) ∈ delta := by
        rw [World.capturedLast_log, World.called_log, hcall] at hlog
        simp [← List.append_cancel_left hlog]
      exact absurd trivial (hdelta _ hmem)
  | ok found =>
      simp [Runs, oracleFetch, hcall] at hrun
      obtain ⟨rfl, rfl⟩ := hrun
      rcases C.fetched _ _ _ hcall with ⟨rfl, hrows⟩ | ⟨rfl, hrows⟩
      · exact .inl ⟨rfl, hrows⟩
      · exact .inr ⟨rfl, _, _, hrows, rfl, rfl⟩

/-- A row that is fetched and decoded without a failure is the next one. -/
theorem row_of_noFailure {rc count : Int32} {r : Outcome (List OracleValue)} (C : ResultSet env)
    (hfetch : Runs (oracleFetch env stmt.ptr) w rc w₁) (hrc : 0 < rc)
    (hcount : Runs (oracleColumnCount env stmt.ptr) w₁ count w₂)
    (hrow : Decodes env stmt (columnIndices count) w₂ r w') (hclean : NoFailure w w') :
    ∃ row rest, C.rows stmt.ptr.stmt w.odpi = row :: rest ∧
      r = .ok (row.map DriverCell.value) ∧ C.rows stmt.ptr.stmt w'.odpi = rest := by
  have hafter := Extends.trans _ _ _ (extends_oracleColumnCount hcount) hrow.extends
  obtain ⟨hclean₁, hclean⟩ := hclean.split (extends_oracleFetch hfetch) hafter
  obtain ⟨hclean₂, hclean₃⟩ := hclean.split (extends_oracleColumnCount hcount) hrow.extends
  rcases fetch_of_noFailure C hfetch hclean₁ with ⟨rfl, -⟩ | ⟨-, row, rest, hrows, hw₁⟩
  · exact absurd hrc (by decide)
  · have hmem : row ∈ C.rows stmt.ptr.stmt w.odpi := by simp [hrows]
    obtain ⟨hlength, hsupported⟩ := C.supported _ _ row hmem
    obtain ⟨hlast, hw₂⟩ := (cleanly_oracleColumnCount hlength).spec _ _ _ hw₁ hcount hclean₂
    obtain ⟨hvalues, hw'⟩ := hrow.values (cells_columnIndices hlast) hsupported hw₂ hclean₃
    exact ⟨row, rest, hrows, hvalues, hw'.2⟩

/-- Without a failure a scan gives the values of the rows to come. -/
theorem Scan.values {r : Outcome (List (List OracleValue))} (C : ResultSet env)
    (h : Scan env stmt w r w') (hclean : NoFailure w w') :
    r = .ok ((C.rows stmt.ptr.stmt w.odpi).map (List.map DriverCell.value)) := by
  induction h with
  | done hfetch =>
      rcases fetch_of_noFailure C hfetch hclean with ⟨-, hrows⟩ | ⟨hrc, -⟩
      · rw [hrows]
        rfl
      · cases hrc
  | fetchFails hfetch hrc =>
      rcases fetch_of_noFailure C hfetch hclean with ⟨rfl, -⟩ | ⟨rfl, -⟩
      · exact absurd hrc (by decide)
      · exact absurd hrc (by decide)
  | columnFails hfetch hrc hcount hrow =>
      obtain ⟨row, rest, -, herror, -⟩ := row_of_noFailure C hfetch hrc hcount hrow hclean
      cases herror
  | row hfetch hrc hcount hrow hrest ih =>
      have hcounted := Extends.trans _ _ _ (extends_oracleColumnCount hcount) hrow.extends
      have hbefore := Extends.trans _ _ _ (extends_oracleFetch hfetch) hcounted
      obtain ⟨hclean₁, hclean₂⟩ := hclean.split hbefore hrest.extends
      obtain ⟨row, rest, hrows, hvalues, hlater⟩ :=
        row_of_noFailure C hfetch hrc hcount hrow hclean₁
      cases hvalues
      rw [ih hclean₂, hlater, hrows]
      rfl

end Rows

section Opening

variable {α : Type} {Q : α → World σ → Prop}

/-- A call that succeeds, from any world. -/
theorem Cleanly.succeeds {req : Req} {k : Except DpiError req.Resp → Eff (World σ) α}
    (herror : ∀ err, Grows (k (.error err)))
    (hok : ∀ reply, Cleanly (fun _ => True) (k (.ok reply)) Q) :
    Cleanly (fun _ => True) (odpi env req >>= k) Q := by
  have hcall : Cleanly (fun _ => True) (odpi env req) fun r (_ : World σ) =>
      (∃ reply, r = .ok reply) ∧ True := by
    refine ⟨preserves_odpi (follows_extends env) trivial, ?_⟩
    rintro w r w' - hrun hclean
    cases hrun
    exact ⟨hclean.reply, trivial⟩
  refine hcall.bind_of (fun r => ?_) ?_
  · cases r with
    | error err => exact herror err
    | ok reply => exact (hok reply).grows
  · rintro _ ⟨reply, rfl⟩
    exact hok reply

theorem Cleanly.of_grows {m : Eff (World σ) α} (h : Grows m) :
    Cleanly (fun _ => True) m fun _ _ => True :=
  ⟨h, fun _ _ _ _ _ _ => trivial⟩

theorem cleanly_prepare (conn : Connection) (sql : String) :
    Cleanly (fun _ => True) (prepare env conn sql) fun r (_ : World σ) => ∃ stmt, r = .ok stmt := by
  have F := follows_extends env
  have hnone : Grows (do
      let lasterr ← getLastError env
      return .error lasterr : Eff (World σ) (Outcome Statement)) :=
    F.seq (preserves_getLastError F) fun _ => grows_pure _
  have hptr : Cleanly (fun _ => True) (oraclePrepareStmt env conn.ptr (toC sql))
      fun ptr (_ : World σ) => (∃ stmt, ptr = some stmt) ∧ True := by
    have hblock : Cleanly (fun _ => True) (malloc env .stmt 16) fun block (_ : World σ) =>
        (∃ id, block = some id) ∧ True := by
      refine ⟨preserves_malloc F _ _, ?_⟩
      rintro w block w' - hrun hclean
      exact ⟨⟨_, (runs_malloc_of_noFailure hrun hclean).1⟩, trivial⟩
    have hfailed : ∀ (block : Nat), Grows (do
        oracleCaptureLastError
        free block
        return none : Eff (World σ) (Option OracleStmt)) := fun block =>
      F.seq (preserves_oracleCaptureLastError F) fun _ =>
        F.seq (preserves_free F _) fun _ => grows_pure _
    refine hblock.bind_of (fun block => ?_) ?_
    · cases block with
      | none => exact grows_pure _
      | some block =>
          exact preserves_call F trivial (fun _ => hfailed block) fun _ => grows_pure _
    · rintro _ ⟨block, rfl⟩
      exact Cleanly.succeeds (fun _ => hfailed block) fun stmt =>
        Cleanly.pure fun _ _ => ⟨⟨_, rfl⟩, trivial⟩
  refine hptr.bind_of (fun ptr => ?_) ?_
  · cases ptr with
    | none => exact hnone
    | some ptr => exact grows_pure _
  · rintro _ ⟨stmt, rfl⟩
    exact Cleanly.pure fun _ _ => ⟨_, rfl⟩

theorem cleanly_finish {m : Eff (World σ) Int32}
    (hm : Cleanly (fun _ => True) m fun rc (_ : World σ) => rc = 0 ∧ True) :
    Cleanly (fun _ => True) (m >>= finish env) fun r (_ : World σ) => r = .ok () := by
  refine hm.bind_of (fun rc => preserves_finish (follows_extends env) rc) ?_
  rintro _ rfl
  exact Cleanly.pure fun _ _ => rfl

theorem cleanly_bindStatus (stmt : OracleStmt) (name : List UInt8) (value : OracleValue) :
    Cleanly (fun _ => True) (bindStatus env stmt name value) fun rc (_ : World σ) =>
      rc = 0 ∧ True := by
  have F := follows_extends env
  have hnative : ∀ native data, Cleanly (fun _ => True) (oracleBindNative env stmt name native data)
      fun rc (_ : World σ) => rc = 0 ∧ True := fun native data =>
    Cleanly.succeeds (fun _ => preserves_captured F _) fun _ =>
      Cleanly.pure fun _ _ => ⟨rfl, trivial⟩
  have htyped : ∀ ty native data, Cleanly (fun _ => True)
      (oracleBindTyped env stmt name ty native data) fun rc (_ : World σ) => rc = 0 ∧ True := by
    intro ty native data
    have hbound : ∀ var, Cleanly (fun _ => True) (odpiRelease env (.var var) >>= fun _ =>
        (pure 0 : Eff (World σ) Int32)) fun rc (_ : World σ) => rc = 0 ∧ True := fun var =>
      (Cleanly.of_grows (preserves_odpiRelease F trivial)).bind fun _ =>
        Cleanly.pure fun _ _ => ⟨rfl, trivial⟩
    refine Cleanly.succeeds (fun _ => preserves_captured F _) fun var => ?_
    refine (Cleanly.of_grows (preserves_storeVar F var data)).bind fun _ => ?_
    refine Cleanly.succeeds (fun _ => ?_) fun _ => hbound var
    exact F.seq (preserves_oracleCaptureLastError F) fun _ =>
      F.seq (preserves_odpiRelease F trivial) fun _ => grows_pure _
  cases value with
  | oracleBinaryFloat f => exact htyped _ _ _
  | oracleBinaryDouble d => exact htyped _ _ _
  | _ => exact hnative _ _

theorem cleanly_bindOne (param : BindParameter) :
    Cleanly (fun _ => True) (bindOne env stmt param) fun r (_ : World σ) => r = .ok () ∧ True :=
  ⟨preserves_bindOne (follows_extends env) trivial trivial stmt param, fun w r w' hw hrun hclean =>
    ⟨(cleanly_finish (cleanly_bindStatus _ _ _)).spec w r w' hw hrun hclean, trivial⟩⟩

theorem cleanly_bind (params : List BindParameter) :
    Cleanly (fun _ => True) (bind env stmt params) fun r (_ : World σ) => r = .ok () := by
  induction params with
  | nil => exact Cleanly.pure fun _ _ => rfl
  | cons param params ih =>
      refine (cleanly_bindOne param).bind_of (fun r => ?_) ?_
      · cases r with
        | error err => exact grows_pure _
        | ok u => exact preserves_bind (follows_extends env) trivial trivial stmt params
      · rintro _ rfl
        exact ih

theorem cleanly_execute :
    Cleanly (fun _ => True) (execute env stmt) fun r (_ : World σ) => r = .ok () :=
  cleanly_finish (Cleanly.succeeds (fun _ => preserves_captured (follows_extends env) _)
    fun _ => Cleanly.pure fun _ _ => ⟨rfl, trivial⟩)

end Opening

section Returns

/-- Everything but a fetch leaves the rows of a cursor where they are. -/
theorem follows_rows (C : ResultSet env) (stmt : DpiStmt) :
    Follows env Req.Group.OnRow (fun kind => kind = .lob) fun w w' : World σ =>
      C.rows stmt w'.odpi = C.rows stmt w.odpi where
  refl _ := rfl
  trans _ _ _ huv hvw := hvw.trans huv
  called req w hreq := (C.called stmt req w.odpi hreq).1
  released handle w hlob := by
    cases handle with
    | lob lob => exact (C.released stmt lob w.odpi).1
    | conn _ | stmt _ | var _ => cases hlob
  stored var data w := (C.stored stmt var data w.odpi).1
  allocated kind size w := (C.allocated stmt kind size w.odpi).1
  refused kind size w _ := (C.allocated stmt kind size w.odpi).1
  freed _ _ := rfl
  read _ _ := rfl
  captured _ _ := rfl
  ready _ := rfl

theorem length_rows_lt {values : List OracleValue} (C : ResultSet env)
    (hrun : Runs (fetchRow env stmt) w (.ok (some values)) w') :
    (C.rows stmt.ptr.stmt w'.odpi).length < (C.rows stmt.ptr.stmt w.odpi).length := by
  obtain ⟨hfetch, hrows⟩ := fetched_of_fetchRow (follows_rows C stmt.ptr.stmt) rfl hrun
  rw [hrows]
  rcases C.fetched _ _ _ hfetch with ⟨hfound, -⟩ | ⟨-, hnext⟩
  · cases hfound
  · rw [hnext]
    exact Nat.lt_succ_self _

/-- With enough fuel a query returns. -/
theorem ResultSet.returns_queryRaw (C : ResultSet env) (conn : Connection) (sql : String)
    (params : List BindParameter) (w : World σ) :
    ∃ bound, ∀ fuel, bound ≤ fuel →
      ∃ result w', Runs (queryRaw env fuel conn sql params) w result w' := by
  refine returns_queryRaw_of_fetchRaw conn sql params w fun stmt w₁ => ?_
  refine ⟨(C.rows stmt.ptr.stmt w₁.odpi).length + 1, fun fuel hfuel => ?_⟩
  exact returns_loop (fun s => (C.rows stmt.ptr.stmt s).length)
    (fun _ _ _ hrow => length_rows_lt C hrow) [] hfuel

end Returns

section Query

/-- The statement is prepared, its parameters are bound and it is executed. -/
def Opens (env : Env σ) (conn : Connection) (sql : String) (params : List BindParameter)
    (w : World σ) (stmt : Statement) (w' : World σ) : Prop :=
  ∃ w₁ w₂, Runs (prepare env conn sql) w (.ok stmt) w₁ ∧
    Runs (bind env stmt params) w₁ (.ok ()) w₂ ∧ Runs (execute env stmt) w₂ (.ok ()) w'

variable {conn : Connection} {sql : String} {params : List BindParameter} {fuel : Nat}
  {result : Outcome (List (List OracleValue))}

/-- Once its statement is open, a query scans the rows and releases the statement. -/
theorem scan_of_queryRaw {w₁ : World σ}
    (hrun : Runs (queryRaw env fuel conn sql params) w result w')
    (hopens : Opens env conn sql params w stmt w₁) :
    ∃ w₂, Scan env stmt w₁ result w₂ ∧ Runs (stmt.release env) w₂ () w' := by
  obtain ⟨wp, wb, hprepare, hbind, hexecute⟩ := hopens
  obtain ⟨prepared, w₃, w₄, hprepare', huse, hrelease⟩ := runs_bracket.mp hrun
  obtain ⟨rfl, rfl⟩ := hprepare.unique hprepare'
  refine ⟨w₄, ?_, hrelease⟩
  rcases runs_andThen.mp huse with ⟨err, hbind', -⟩ | ⟨u, w₅, hbind', huse⟩
  · cases (hbind.unique hbind').1
  · obtain ⟨-, rfl⟩ := hbind.unique hbind'
    rcases runs_andThen.mp huse with ⟨err, hexecute', -⟩ | ⟨v, w₆, hexecute', hfetch⟩
    · cases (hexecute.unique hexecute').1
    · obtain ⟨-, rfl⟩ := hexecute.unique hexecute'
      obtain ⟨rows, hscan, rfl⟩ := scan_of_loop hfetch
      rw [List.reverse_nil, map_nil_append]
      exact hscan

/-- Without a failure a query opens its statement and nothing fails while it scans. -/
theorem opens_of_noFailure (hrun : Runs (queryRaw env fuel conn sql params) w result w')
    (hclean : NoFailure w w') :
    ∃ stmt w₁ w₂, Opens env conn sql params w stmt w₁ ∧ Scan env stmt w₁ result w₂ ∧
      NoFailure w₁ w₂ := by
  have F := follows_extends env
  obtain ⟨prepared, w₁, w₂, hprepare, huse, hrelease⟩ := runs_bracket.mp hrun
  have hprepared := (preserves_prepare F trivial conn sql).of_runs hprepare
  cases prepared with
  | error err =>
      cases huse
      cases hrelease
      obtain ⟨stmt, hstmt⟩ := (cleanly_prepare conn sql).spec _ _ _ trivial hprepare hclean
      cases hstmt
  | ok stmt =>
      have hreleased := (preserves_oracleReleaseStmt F trivial stmt.ptr).of_runs hrelease
      have hbound := preserves_bind F trivial trivial stmt params
      have hexecuted := preserves_execute F trivial stmt
      rcases runs_andThen.mp huse with ⟨err, hbind, rfl⟩ | ⟨u, w₃, hbind, huse⟩
      · have hw₂ := hbound.of_runs hbind
        obtain ⟨-, hclean⟩ := hclean.split hprepared (hw₂.trans _ _ _ hreleased)
        have hfirst := (hclean.split hw₂ hreleased).1
        cases (cleanly_bind params).spec _ _ _ trivial hbind hfirst
      · have hw₃ := hbound.of_runs hbind
        rcases runs_andThen.mp huse with ⟨err, hexecute, rfl⟩ | ⟨v, w₄, hexecute, hfetch⟩
        · have hw₂ := hexecuted.of_runs hexecute
          have hafter := hw₂.trans _ _ _ hreleased
          obtain ⟨-, hclean⟩ := hclean.split hprepared (hw₃.trans _ _ _ hafter)
          obtain ⟨-, hclean⟩ := hclean.split hw₃ hafter
          have hfirst := (hclean.split hw₂ hreleased).1
          cases cleanly_execute.spec _ _ _ trivial hexecute hfirst
        · have hw₄ := hexecuted.of_runs hexecute
          obtain ⟨rows, hscan, rfl⟩ := scan_of_loop hfetch
          rw [List.reverse_nil, map_nil_append]
          have hw₂ := hscan.extends.trans _ _ _ hreleased
          have hafter := hw₄.trans _ _ _ hw₂
          obtain ⟨-, hclean⟩ := hclean.split hprepared (hw₃.trans _ _ _ hafter)
          obtain ⟨-, hclean⟩ := hclean.split hw₃ hafter
          obtain ⟨-, hclean⟩ := hclean.split hw₄ hw₂
          exact ⟨stmt, w₄, w₂, ⟨w₁, w₃, hprepare, hbind, hexecute⟩, hscan,
            (hclean.split hscan.extends hreleased).1⟩

theorem opens_listing {w w₁ : World Listing} (h : Opens Listing.env conn sql params w stmt w₁) :
    w₁.odpi = w.odpi := by
  have F := Listing.follows_list
  obtain ⟨wp, wb, hprepare, hbind, hexecute⟩ := h
  have hprepared := (preserves_prepare F (by simp) conn sql).of_runs hprepare
  have hbound := (preserves_bind F (by simp) trivial stmt params).of_runs hbind
  have hexecuted := (preserves_execute F (by simp) stmt).of_runs hexecute
  rw [hexecuted, hbound, hprepared]

/-- A query on a list gives the values of its rows. -/
theorem returns_listing (rows : List PlainRow) (conn : Connection) (sql : String)
    (params : List BindParameter) :
    ∃ bound, ∀ fuel, bound ≤ fuel → ∃ w',
      Runs (queryRaw Listing.env fuel conn sql params) (World.initial (Listing.start rows))
        (.ok (rows.map fun row => row.1.map DriverCell.value)) w' := by
  obtain ⟨bound, hreturns⟩ := Listing.resultSet.returns_queryRaw conn sql params
    (World.initial (Listing.start rows))
  refine ⟨bound, fun fuel hfuel => ?_⟩
  obtain ⟨result, w', hrun⟩ := hreturns fuel hfuel
  obtain ⟨stmt, w₁, w₂, hopens, hscan, hclean⟩ :=
    opens_of_noFailure hrun (Listing.noFailure_queryRaw hrun)
  have hresult := hscan.values Listing.resultSet hclean
  have hrows : Listing.resultSet.rows stmt.ptr.stmt w₁.odpi = rows.map Subtype.val := by
    rw [opens_listing hopens]
    rfl
  rw [hrows, List.map_map] at hresult
  exact ⟨w', hresult ▸ hrun⟩

/-- A query scans the rows of its cursor in order and delivers all of them if nothing fails. -/
theorem queryRaw_delivers_rows (C : ResultSet env) (conn : Connection) (sql : String)
    (params : List BindParameter) (w : World σ) :
    query env = queryRaw env ∧ ∃ bound, ∀ fuel, bound ≤ fuel → ∃ result w',
      Runs (queryRaw env fuel conn sql params) w result w' ∧
      (∀ stmt w₁, Opens env conn sql params w stmt w₁ →
        ∃ w₂, Scan env stmt w₁ result w₂ ∧ Runs (stmt.release env) w₂ () w') ∧
      (NoFailure w w' → ∃ stmt w₁, Opens env conn sql params w stmt w₁ ∧
        result = .ok ((C.rows stmt.ptr.stmt w₁.odpi).map (List.map DriverCell.value))) := by
  refine ⟨query_eq_queryRaw env, ?_⟩
  obtain ⟨bound, hreturns⟩ := C.returns_queryRaw conn sql params w
  refine ⟨bound, fun fuel hfuel => ?_⟩
  obtain ⟨result, w', hrun⟩ := hreturns fuel hfuel
  refine ⟨result, w', hrun, fun stmt w₁ hopens => scan_of_queryRaw hrun hopens, fun hclean => ?_⟩
  obtain ⟨stmt, w₁, w₂, hopens, hscan, hclean⟩ := opens_of_noFailure hrun hclean
  exact ⟨stmt, w₁, hopens, hscan.values C hclean⟩

/-- A cell of a NUMBER column. -/
def numberCell (word : UInt64) : DriverCell where
  info := ⟨[], ⟨.number, 0, 0, -127⟩, 1⟩
  native := .double
  data := ⟨0, { DpiDataBuffer.zero with word }⟩
  lobBytes := []

def numberRow (word : UInt64) : PlainRow :=
  ⟨[numberCell word], by
    refine ⟨by simp, fun cell hcell => ?_⟩
    rw [List.mem_singleton.mp hcell]
    exact ⟨.inr trivial, rfl⟩⟩

theorem queryRaw_delivers_rows_numbers :
    ∃ fuel result w', Runs (queryRaw Listing.env fuel ⟨⟨0⟩⟩ "SELECT n FROM numbers" [])
        (World.initial (Listing.start [numberRow 0, numberRow 1])) result w' ∧
      result = .ok [[.oracleNumber (Float.ofBits 0)], [.oracleNumber (Float.ofBits 1)]] := by
  obtain ⟨-, bound, hreturns⟩ := queryRaw_delivers_rows Listing.resultSet ⟨⟨0⟩⟩
    "SELECT n FROM numbers" [] (World.initial (Listing.start [numberRow 0, numberRow 1]))
  obtain ⟨result, w', hrun, -, hclean⟩ := hreturns bound le_rfl
  obtain ⟨stmt, w₁, hopens, hresult⟩ := hclean (Listing.noFailure_queryRaw hrun)
  rw [opens_listing hopens] at hresult
  exact ⟨bound, result, w', hrun, hresult⟩

end Query

end IdrisOracle
