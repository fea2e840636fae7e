import IdrisOracle.Statement
import IdrisOracle.Writes

/-! What a statement has bound after a list of parameters. -/

namespace IdrisOracle

open Effect

/-- The two ways in which the C layer binds a value. -/
inductive BindForm where
  | native (nativeType : DpiNativeTypeNum) (data : DpiData)
  | typed (oracleType : DpiOracleTypeNum) (nativeType : DpiNativeTypeNum) (data : DpiData)

namespace BindForm

/-- The type and the data of the variable that is bound. -/
def slot : BindForm → Option (DpiOracleTypeNum × DpiData)
  | native nativeType data => (createBindVar nativeType).map fun type => (type, data)
  | typed oracleType _ data => some (oracleType, data)

def status {σ : Type} (env : Env σ) (stmt : OracleStmt) (name : List UInt8) :
    BindForm → Eff (World σ) Int32
  | native nativeType data => oracleBindNative env stmt name nativeType data
  | typed oracleType nativeType data => oracleBindTyped env stmt name oracleType nativeType data

/-- A text, in the way the C layer binds it. -/
def text (s : String) : BindForm := .native .bytes (dpiDataSetBytes .zero (counted (toC s)))

/-- How each value is bound. -/
def ofValue : OracleValue → BindForm
  | .oracleNull => .native .bytes (dpiDataSetNull .zero)
  | .oracleString s => text s
  | .oracleNumber d => .native .double (dpiDataSetDouble .zero d)
  | .oracleBinaryFloat f => .typed .nativeFloat .float (dpiDataSetFloat .zero f.toFloat32)
  | .oracleBinaryDouble d => .typed .nativeDouble .double (dpiDataSetDouble .zero d)
  | .oracleBool b => .native .boolean (dpiDataSetBool .zero b)
  | .oracleRaw b => text (hexEncode b)
  | .oracleClob s => text s
  | .oracleBlob b => text (String.ofList (CString.decode b))
  | .oracleDate ts =>
      .native .timestamp (dpiDataSetTimestamp .zero ⟨ts.year.toInt16, ts.month.toInt8.toUInt8,
        ts.day.toInt8.toUInt8, ts.hour.toInt8.toUInt8, ts.minute.toInt8.toUInt8,
        ts.second.toInt8.toUInt8, 0, 0, 0⟩)
  | .oracleTimestamp ts =>
      .native .timestamp (dpiDataSetTimestamp .zero ⟨ts.year.toInt16, ts.month.toInt8.toUInt8,
        ts.day.toInt8.toUInt8, ts.hour.toInt8.toUInt8, ts.minute.toInt8.toUInt8,
        ts.second.toInt8.toUInt8, ts.nanosecond.toUInt32, 0, 0⟩)
  | .oracleTimestampTZ ts =>
      .native .timestamp (dpiDataSetTimestamp .zero ⟨ts.year.toInt16, ts.month.toInt8.toUInt8,
        ts.day.toInt8.toUInt8, ts.hour.toInt8.toUInt8, ts.minute.toInt8.toUInt8,
        ts.second.toInt8.toUInt8, ts.nanosecond.toUInt32, ts.tzHourOffset.toInt8,
        ts.tzMinuteOffset.toInt8⟩)
  | .oracleIntervalYM iv =>
      .native .intervalYM (dpiDataSetIntervalYM .zero ⟨iv.years, iv.months⟩)
  | .oracleIntervalDS iv =>
      .native .intervalDS (dpiDataSetIntervalDS .zero
        ⟨iv.days, iv.hours, iv.minutes, iv.seconds, iv.nanoseconds⟩)

end BindForm

/-- The name of a parameter as ODPI-C receives it. -/
def BindParameter.cName (param : BindParameter) : List UInt8 := counted (toC param.name)

/-- The encoded value of a parameter: the type and the data of its variable. -/
def BindParameter.encoded (param : BindParameter) : Option (DpiOracleTypeNum × DpiData) :=
  (BindForm.ofValue param.value).slot

/-- What each statement of ODPI-C has bound to a name; a bind replaces that and nothing else. -/
structure BindStore {σ : Type} (env : Env σ) where
  binding : σ → DpiStmt → List UInt8 → Option (DpiOracleTypeNum × DpiData)
  content : σ → DpiVar → DpiOracleTypeNum × DpiData
  fresh : σ → DpiVar → Prop
  bindValue : ∀ stmt name native data s,
    (env.call (.stmtBindValueByName stmt name native data) s).1 = .ok () →
      ∃ type, createBindVar native = some type ∧
        binding (env.call (.stmtBindValueByName stmt name native data) s).2 stmt =
          Function.update (binding s stmt) name (some (type, data))
  newVar : ∀ conn type native s var, (env.call (.connNewVar conn type native) s).1 = .ok var →
    binding (env.call (.connNewVar conn type native) s).2 = binding s ∧
      fresh (env.call (.connNewVar conn type native) s).2 var ∧
      (content (env.call (.connNewVar conn type native) s).2 var).1 = type
  storeVar : ∀ var data s, fresh s var →
    binding (env.storeVar var data s) = binding s ∧
      content (env.storeVar var data s) var = ((content s var).1, data)
  bindByName : ∀ stmt name var s, (env.call (.stmtBindByName stmt name var) s).1 = .ok () →
    binding (env.call (.stmtBindByName stmt name var) s).2 stmt =
      Function.update (binding s stmt) name (some (content s var))
  released : ∀ var s, binding (env.release (.var var) s) = binding s

section Statuses

variable {σ : Type} {env : Env σ} {w w₁ : World σ}

theorem bindStatus_eq (stmt : OracleStmt) (name : List UInt8) (value : OracleValue) :
    bindStatus env stmt name value = (BindForm.ofValue value).status env stmt name := by
  cases value with
  | oracleBool b => cases b <;> rfl
  | _ => rfl

theorem runs_finish_ok {rc : Int32} :
    Runs (finish env rc) w (.ok ()) w₁ ↔ rc = 0 ∧ w₁ = w := by
  by_cases hrc : rc = 0
  · simp [Runs, hrc, eq_comm]
  · simp [Runs, hrc]

theorem runs_bindOne_ok {stmt : Statement} {param : BindParameter} :
    Runs (bindOne env stmt param) w (.ok ()) w₁ ↔
      Runs (bindStatus env stmt.ptr (toC param.name) param.value) w 0 w₁ := by
  constructor
  · intro hrun
    obtain ⟨rc, w₂, hstatus, hfinish⟩ := runs_bind.mp hrun
    obtain ⟨rfl, rfl⟩ := runs_finish_ok.mp hfinish
    exact hstatus
  · intro hstatus
    exact hstatus.bind (runs_finish_ok.mpr ⟨rfl, rfl⟩)

theorem runs_oracleBindNative_ok {stmt : OracleStmt} {cname : List UInt8}
    {native : DpiNativeTypeNum} {data : DpiData}
    (hrun : Runs (oracleBindNative env stmt cname native data) w 0 w₁) :
    (env.call (.stmtBindValueByName stmt.stmt (counted cname) native data) w.odpi).1 = .ok () ∧
      w₁ = w.called env (.stmtBindValueByName stmt.stmt (counted cname) native data) := by
  let req := Req.stmtBindValueByName stmt.stmt (counted cname) native data
  cases hcall : (env.call req w.odpi).1 with
  | error failure =>
      simp [Runs, oracleBindNative, hcall, req] at hrun
      exact absurd hrun.1 (by decide)
  | ok reply =>
      simp [Runs, oracleBindNative, hcall, req] at hrun
      exact ⟨rfl, hrun.symm⟩

theorem runs_oracleBindTyped_ok {stmt : OracleStmt} {cname : List UInt8}
    {oracleType : DpiOracleTypeNum} {native : DpiNativeTypeNum} {data : DpiData}
    (hrun : Runs (oracleBindTyped env stmt cname oracleType native data) w 0 w₁) :
    ∃ var s₁ s₂, env.call (.connNewVar stmt.conn oracleType native) w.odpi = (.ok var, s₁) ∧
      env.call (.stmtBindByName stmt.stmt (counted cname) var) (env.storeVar var data s₁) =
        (.ok (), s₂) ∧
      w₁.odpi = env.release (.var var) s₂ := by
  obtain ⟨created, w₂, hnew, hrun⟩ := runs_bind.mp hrun
  obtain ⟨hcreated, rfl⟩ := runs_odpi hnew
  cases created with
  | error failure =>
      obtain ⟨_, _, _, hrun⟩ := runs_bind.mp hrun
      exact absurd (runs_pure.mp hrun).1 (by decide)
  | ok var =>
      obtain ⟨_, w₃, hstore, hrun⟩ := runs_bind.mp hrun
      cases hstore
      obtain ⟨bound, w₄, hbind, hrun⟩ := runs_bind.mp hrun
      obtain ⟨hbound, rfl⟩ := runs_odpi hbind
      cases bound with
      | error failure =>
          obtain ⟨_, _, _, hrun⟩ := runs_bind.mp hrun
          obtain ⟨_, _, _, hrun⟩ := runs_bind.mp hrun
          exact absurd (runs_pure.mp hrun).1 (by decide)
      | ok reply =>
          obtain ⟨_, w₅, hrelease, hrun⟩ := runs_bind.mp hrun
          cases hrelease
          obtain ⟨-, rfl⟩ := runs_pure.mp hrun
          exact ⟨var, _, _, Prod.ext hcreated rfl, Prod.ext hbound rfl, rfl⟩

variable (B : BindStore env)

/-- A bind that succeeds replaces what its name is bound to. -/
theorem BindStore.binding_status {stmt : OracleStmt} {cname : List UInt8} {form : BindForm}
    (hrun : Runs (form.status env stmt cname) w 0 w₁) :
    B.binding w₁.odpi stmt.stmt =
      Function.update (B.binding w.odpi stmt.stmt) (counted cname) form.slot := by
  cases form with
  | native nativeType data =>
      obtain ⟨hcall, rfl⟩ := runs_oracleBindNative_ok hrun
      obtain ⟨type, htype, hbinding⟩ := B.bindValue _ _ _ _ _ hcall
      rw [World.called_odpi, hbinding, BindForm.slot, htype]
      rfl
  | typed oracleType nativeType data =>
      obtain ⟨var, s₁, s₂, hnew, hbind, hodpi⟩ := runs_oracleBindTyped_ok hrun
      have hcreated := B.newVar stmt.conn oracleType nativeType w.odpi var (by rw [hnew])
      rw [hnew] at hcreated
      obtain ⟨hkept, hfresh, htype⟩ := hcreated
      obtain ⟨hstored, hcontent⟩ := B.storeVar var data s₁ hfresh
      have hbound := B.bindByName stmt.stmt (counted cname) var (env.storeVar var data s₁)
        (by rw [hbind])
      rw [hbind, hstored, hkept, hcontent, htype] at hbound
      rw [hodpi, B.released, hbound, BindForm.slot]

end Statuses

section Runs

variable {σ : Type} {env : Env σ} {stmt : Statement} {params : List BindParameter}
  {w w₁ w' : World σ} (B : BindStore env)

/-- The write a parameter stands for. -/
def BindParameter.assignment (param : BindParameter) :
    List UInt8 × Option (DpiOracleTypeNum × DpiData) :=
  (param.cName, param.encoded)

/-- A list of parameters that is bound leaves the bindings its writes lead to. -/
theorem BindStore.binding_bind (hrun : Runs (bind env stmt params) w (.ok ()) w₁) :
    B.binding w₁.odpi stmt.ptr.stmt =
      Writes.write (B.binding w.odpi stmt.ptr.stmt) (params.map BindParameter.assignment) := by
  induction params generalizing w with
  | nil =>
      obtain ⟨-, rfl⟩ := runs_pure.mp hrun
      rfl
  | cons param params ih =>
      obtain ⟨result, w₂, hone, hrest⟩ := runs_bind.mp hrun
      cases result with
      | error err => cases hrest
      | ok u =>
          have hstatus := runs_bindOne_ok.mp hone
          rw [bindStatus_eq] at hstatus
          rw [ih hrest, B.binding_status hstatus]
          rfl

/-- A list of parameters fails with the first that fails, in the world that one leaves. -/
theorem runs_bind_error_iff {err : OracleError} :
    Runs (bind env stmt params) w (.error err) w' ↔
      ∃ before param after w₁, params = before ++ param :: after ∧
        Runs (bind env stmt before) w (.ok ()) w₁ ∧
        Runs (bindOne env stmt param) w₁ (.error err) w' := by
  induction params generalizing w with
  | nil =>
      refine iff_of_false (fun hrun => by cases hrun) ?_
      rintro ⟨before, param, after, w₁, hsplit, -, -⟩
      simp at hsplit
  | cons first params ih =>
      constructor
      · intro hrun
        obtain ⟨result, w₂, hone, hrest⟩ := runs_bind.mp hrun
        cases result with
        | error err' =>
            obtain ⟨heq, rfl⟩ := runs_pure.mp hrest
            cases heq
            exact ⟨[], first, params, w, rfl, Runs.pure _ _, hone⟩
        | ok u =>
            obtain ⟨before, param, after, w₁, rfl, hbefore, hparam⟩ := ih.mp hrest
            exact ⟨first :: before, param, after, w₁, rfl, hone.bind hbefore, hparam⟩
      · rintro ⟨before, param, after, w₁, hsplit, hbefore, hparam⟩
        cases before with
        | nil =>
            cases hsplit
            obtain ⟨-, rfl⟩ := runs_pure.mp hbefore
            exact hparam.bind (Runs.pure _ _)
        | cons second before =>
            cases hsplit
            obtain ⟨result, w₂, hone, hrest⟩ := runs_bind.mp hbefore
            cases result with
            | error err' => cases hrest
            | ok u => exact hone.bind (ih.mpr ⟨before, param, after, w₁, rfl, hrest, hparam⟩)

/-- The parameter is the last one with its name. -/
def LastOf (params : List BindParameter) (param : BindParameter) : Prop :=
  ∃ before after, params = before ++ param :: after ∧ ∀ later ∈ after, later.name ≠ param.name

/-- The last parameters of two names that reach ODPI-C as the same text carry the same value. -/
def NamesAgree (params : List BindParameter) : Prop :=
  ∀ p q, LastOf params p → LastOf params q → p.cName = q.cName → p.encoded = q.encoded

theorem LastOf.mem {param : BindParameter} (h : LastOf params param) : param ∈ params := by
  obtain ⟨before, after, rfl, -⟩ := h
  simp

/-- Of distinct names each parameter is the last. -/
theorem lastOf_of_nodup (hnodup : (params.map BindParameter.name).Nodup) {param : BindParameter}
    (hparam : param ∈ params) : LastOf params param := by
  obtain ⟨before, after, rfl⟩ := List.append_of_mem hparam
  refine ⟨before, after, rfl, fun later hlater hname => ?_⟩
  rw [List.map_append, List.map_cons] at hnodup
  have hcons := (List.nodup_append.mp hnodup).2.1
  exact (List.nodup_cons.mp hcons).1 (hname ▸ List.mem_map_of_mem hlater)

/-- Of the parameters that reach ODPI-C with one name, some parameter is the last. -/
theorem exists_last_cName {name : List UInt8} (h : ∃ param ∈ params, param.cName = name) :
    ∃ before param after, params = before ++ param :: after ∧ param.cName = name ∧
      ∀ later ∈ after, later.cName ≠ name := by
  induction params with
  | nil => simp at h
  | cons first params ih =>
      by_cases hrest : ∃ param ∈ params, param.cName = name
      · obtain ⟨before, param, after, rfl, hname, hlast⟩ := ih hrest
        exact ⟨first :: before, param, after, rfl, hname, hlast⟩
      · obtain ⟨param, hparam, hname⟩ := h
        rcases List.mem_cons.mp hparam with rfl | hparam
        · exact ⟨[], param, params, rfl, hname, fun later hlater heq => hrest ⟨later, hlater, heq⟩⟩
        · exact absurd ⟨param, hparam, hname⟩ hrest

/-- The last parameter of each name is bound with its encoded value, every other name is bound as
it was, and distinct names may come in any order. -/
structure BindStore.BindsLast (stmt : Statement) (params : List BindParameter)
    (w w₁ : World σ) : Prop where
  last : ∀ param, LastOf params param →
    B.binding w₁.odpi stmt.ptr.stmt param.cName = param.encoded
  others : ∀ name, (∀ param ∈ params, param.cName ≠ name) →
    B.binding w₁.odpi stmt.ptr.stmt name = B.binding w.odpi stmt.ptr.stmt name
  orderFree : (params.map BindParameter.name).Nodup → ∀ permuted w₂, permuted.Perm params →
    Runs (bind env stmt permuted) w (.ok ()) w₂ →
      B.binding w₂.odpi stmt.ptr.stmt = B.binding w₁.odpi stmt.ptr.stmt

theorem BindStore.binding_others (hrun : Runs (bind env stmt params) w (.ok ()) w₁)
    {name : List UInt8} (hname : ∀ param ∈ params, param.cName ≠ name) :
    B.binding w₁.odpi stmt.ptr.stmt name = B.binding w.odpi stmt.ptr.stmt name := by
  rw [B.binding_bind hrun]
  refine Writes.write_of_not_mem fun p hp => ?_
  obtain ⟨param, hparam, rfl⟩ := List.mem_map.mp hp
  exact hname param hparam

theorem BindStore.binding_last (hrun : Runs (bind env stmt params) w (.ok ()) w₁)
    (hagree : NamesAgree params) {param : BindParameter} (hlast : LastOf params param) :
    B.binding w₁.odpi stmt.ptr.stmt param.cName = param.encoded := by
  obtain ⟨before, winner, after, hsplit, hname, hafter⟩ :=
    exists_last_cName ⟨param, hlast.mem, rfl⟩
  have hwinner : LastOf params winner := by
    refine ⟨before, after, hsplit, fun later hlater heq => hafter later hlater ?_⟩
    rw [← hname, BindParameter.cName, BindParameter.cName, heq]
  have hvalue : winner.encoded = param.encoded := hagree _ _ hwinner hlast hname
  rw [B.binding_bind hrun, hsplit, List.map_append, List.map_cons, ← hname, ← hvalue]
  refine Writes.write_last fun q hq => ?_
  obtain ⟨later, hlater, rfl⟩ := List.mem_map.mp hq
  rw [hname]
  exact hafter later hlater

/-- Distinct names with agreeing values are writes that agree. -/
theorem NamesAgree.writes (h : NamesAgree params)
    (hnodup : (params.map BindParameter.name).Nodup) :
    Writes.Agrees (params.map BindParameter.assignment) := by
  intro a ha b hb hkey
  obtain ⟨p, hp, rfl⟩ := List.mem_map.mp ha
  obtain ⟨q, hq, rfl⟩ := List.mem_map.mp hb
  exact h p q (lastOf_of_nodup hnodup hp) (lastOf_of_nodup hnodup hq) hkey

theorem BindStore.bindsLast_iff (hrun : Runs (bind env stmt params) w (.ok ()) w₁) :
    B.BindsLast stmt params w w₁ ↔ NamesAgree params := by
  constructor
  · intro h p q hp hq hname
    rw [← h.last p hp, ← h.last q hq, hname]
  · intro h
    refine ⟨fun param hlast => B.binding_last hrun h hlast,
      fun name hname => B.binding_others hrun hname, ?_⟩
    intro hnodup permuted w₂ hperm hpermuted
    rw [B.binding_bind hrun, B.binding_bind hpermuted]
    exact Writes.write_perm (h.writes hnodup) (hperm.map _)

/-- Parameters are bound as their names say, in any order, iff no two names disagree on a text of
ODPI-C; the first parameter that fails ends the bind. -/
theorem bind_orderFree_iff :
    (∀ w w₁, Runs (bind env stmt params) w (.ok ()) w₁ →
        (B.BindsLast stmt params w w₁ ↔ NamesAgree params)) ∧
      ∀ w err w', Runs (bind env stmt params) w (.error err) w' ↔
        ∃ before param after w₁, params = before ++ param :: after ∧
          Runs (bind env stmt before) w (.ok ()) w₁ ∧
          Runs (bindOne env stmt param) w₁ (.error err) w' :=
  ⟨fun _ _ hrun => B.bindsLast_iff hrun, fun _ _ _ => runs_bind_error_iff⟩

end Runs

/-- The variables of a session and what is bound to them. -/
structure Binder where
  vars : List (DpiOracleTypeNum × DpiData)
  bound : DpiStmt → List UInt8 → Option DpiVar
  inRange : ∀ stmt name var, bound stmt name = some var → var.id < vars.length

namespace Binder

def start : Binder := ⟨[], fun _ _ => none, fun _ _ _ h => by cases h⟩

def addVar (type : DpiOracleTypeNum) (data : DpiData) (s : Binder) : Binder where
  vars := s.vars ++ [(type, data)]
  bound := s.bound
  inRange stmt name var h := by
    have hlt := s.inRange stmt name var h
    rw [List.length_append]
    omega

def bindVar (stmt : DpiStmt) (name : List UInt8) (var : DpiVar) (s : Binder)
    (hvar : var.id < s.vars.length) : Binder where
  vars := s.vars
  bound := Function.update s.bound stmt (Function.update (s.bound stmt) name (some var))
  inRange stmt' name' var' h := by
    by_cases hstmt : stmt' = stmt
    · subst hstmt
      rw [Function.update_self] at h
      by_cases hname : name' = name
      · subst hname
        rw [Function.update_self] at h
        cases h
        exact hvar
      · rw [Function.update_of_ne hname] at h
        exact s.inRange _ _ _ h
    · rw [Function.update_of_ne hstmt] at h
      exact s.inRange _ _ _ h

def writeVar (var : DpiVar) (data : DpiData) (s : Binder) : Binder where
  vars := s.vars.modify var.id fun slot => (slot.1, data)
  bound := s.bound
  inRange stmt name var' h := by
    rw [List.length_modify]
    exact s.inRange stmt name var' h

theorem length_addVar (type : DpiOracleTypeNum) (data : DpiData) (s : Binder) :
    s.vars.length < (s.addVar type data).vars.length := by
  simp [addVar]

def env : Env Binder where
  call
    | .connNewVar _ type _, s => (.ok ⟨s.vars.length⟩, s.addVar type .zero)
    | .stmtBindByName stmt name var, s =>
        if hvar : var.id < s.vars.length then (.ok (), s.bindVar stmt name var hvar)
        else (.error .unsupported, s)
    | .stmtBindValueByName stmt name native data, s =>
        match createBindVar native with
        | none => (.error .unsupported, s)
        | some type =>
            (.ok (), (s.addVar type data).bindVar stmt name ⟨s.vars.length⟩
              (length_addVar type data s))
    | _, s => (.error .unsupported, s)
  release _ s := s
  storeVar var data s := s.writeVar var data
  malloc _ _ s := (true, s)
  nullString := ""

def binding (s : Binder) (stmt : DpiStmt) (name : List UInt8) :
    Option (DpiOracleTypeNum × DpiData) :=
  (s.bound stmt name).bind fun var => s.vars[var.id]?

def content (s : Binder) (var : DpiVar) : DpiOracleTypeNum × DpiData :=
  s.vars.getD var.id (0, .zero)

theorem binding_addVar (type : DpiOracleTypeNum) (data : DpiData) (s : Binder) :
    (s.addVar type data).binding = s.binding := by
  funext stmt name
  unfold binding addVar
  cases hbound : s.bound stmt name with
  | none => rfl
  | some var => exact List.getElem?_append_left (s.inRange stmt name var hbound)

theorem binding_bindVar (stmt : DpiStmt) (name : List UInt8) (var : DpiVar) (s : Binder)
    (hvar : var.id < s.vars.length) :
    (s.bindVar stmt name var hvar).binding stmt =
      Function.update (s.binding stmt) name (some (s.content var)) := by
  funext name'
  simp only [binding, bindVar, Function.update_self]
  by_cases hname : name' = name
  · subst hname
    simp [content, hvar]
  · rw [Function.update_of_ne hname, Function.update_of_ne hname]
    rfl

/-- The variables obey the laws of the binds. -/
def store : BindStore env where
  binding := binding
  content := content
  fresh s var := var.id < s.vars.length ∧ ∀ stmt name, s.bound stmt name ≠ some var
  bindValue stmt name native data s hcall := by
    cases htype : createBindVar native with
    | none => simp [env, htype] at hcall
    | some type =>
        refine ⟨type, rfl, ?_⟩
        have hcontent : (s.addVar type data).content ⟨s.vars.length⟩ = (type, data) := by
          simp [content, addVar]
        simp only [env, htype]
        rw [binding_bindVar, binding_addVar, hcontent]
  newVar conn type native s var hcall := by
    cases hcall
    refine ⟨binding_addVar type .zero s, ⟨length_addVar type .zero s, ?_⟩, ?_⟩
    · intro stmt name hbound
      exact Nat.lt_irrefl _ (s.inRange stmt name _ hbound)
    · simp [env, content, addVar]
  storeVar var data s hfresh := by
    obtain ⟨hvar, hunbound⟩ := hfresh
    constructor
    · funext stmt name
      simp only [env, binding, writeVar]
      cases hbound : s.bound stmt name with
      | none => rfl
      | some other =>
          have hne : var.id ≠ other.id := by
            intro heq
            have hsame : other = var := by
              cases other
              cases var
              exact congrArg DpiVar.mk heq.symm
            exact hunbound stmt name (hbound.trans (congrArg some hsame))
          simp [List.getElem?_modify, hne]
    · simp [env, content, writeVar, hvar]
  bindByName stmt name var s hcall := by
    by_cases hvar : var.id < s.vars.length
    · simp only [env, dif_pos hvar]
      exact binding_bindVar stmt name var s hvar
    · simp [env, hvar] at hcall
  released _ _ := rfl

end Binder

/-- A statement of the session and its parameters, bound in both ways. -/
def flagStatement : Statement := ⟨⟨0, ⟨0⟩, ⟨0⟩⟩⟩

def flagParams : List BindParameter :=
  [⟨":a", .oracleBool true⟩, ⟨":b", .oracleBinaryDouble (Float.ofBits 0)⟩]

theorem bind_orderFree_iff_flags :
    ∃ w₁, Runs (bind Binder.env flagStatement flagParams) (World.initial .start) (.ok ()) w₁ ∧
      Binder.store.BindsLast flagStatement flagParams (World.initial .start) w₁ := by
  have hrun : Runs (bind Binder.env flagStatement flagParams) (World.initial .start) (.ok ()) _ :=
    rfl
  refine ⟨_, hrun, ((bind_orderFree_iff Binder.store).1 _ _ hrun).mpr ?_⟩
  intro p q hp hq hname
  rcases List.mem_pair.mp hp.mem with rfl | rfl <;> rcases List.mem_pair.mp hq.mem with rfl | rfl
  · rfl
  · exact absurd hname (by decide)
  · exact absurd hname (by decide)
  · rfl

/-- Two names that differ after a zero character. -/
def collidingParams : List BindParameter :=
  [⟨":a\x00x", .oracleBool true⟩, ⟨":a\x00y", .oracleBool false⟩]

/-- The two names are one for ODPI-C, so what is bound in the end depends on the order. -/
theorem bind_collision :
    (collidingParams.map BindParameter.name).Nodup ∧ ∃ w₁ w₂,
      Runs (bind Binder.env flagStatement collidingParams) (World.initial .start) (.ok ()) w₁ ∧
      Runs (bind Binder.env flagStatement collidingParams.reverse) (World.initial .start)
        (.ok ()) w₂ ∧
      w₁.odpi.binding ⟨0⟩ [0x3A, 0x61] = some (.boolean, dpiDataSetBool .zero false) ∧
      w₂.odpi.binding ⟨0⟩ [0x3A, 0x61] = some (.boolean, dpiDataSetBool .zero true) ∧
      ¬ Binder.store.BindsLast flagStatement collidingParams (World.initial .start) w₁ := by
  have hrun : Runs (bind Binder.env flagStatement collidingParams) (World.initial .start)
      (.ok ()) _ := rfl
  have hreverse : Runs (bind Binder.env flagStatement collidingParams.reverse)
      (World.initial .start) (.ok ()) _ := rfl
  refine ⟨by decide, _, _, hrun, hreverse, rfl, rfl, fun h => ?_⟩
  have hfirst := h.last _ ⟨[], _, rfl, by decide⟩
  have hbool : (0 : Int32) = 1 :=
    congrArg (fun slot => (slot.map fun v => v.2.value.asBoolean).getD 0) hfirst
  exact absurd hbool (by decide)

end IdrisOracle
