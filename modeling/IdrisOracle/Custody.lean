import IdrisOracle.Trace
import IdrisOracle.Delivery

/-! Connections, statements and query-info structures are released exactly once. -/

namespace IdrisOracle

open Effect

/-- The handles in use, the innermost first, the blocks that are not freed and the query-info
block that was allocated last. -/
structure Custody where
  fresh : Option Nat
  live : List Nat
  held : List Holding

namespace Custody

/-- The handle a call has acquired. -/
def acquired (fresh : Option Nat) : (req : Req) → Except DpiError req.Resp → Option Holding
  | .connCreate .., .ok conn => some (.conn conn)
  | .connPrepareStmt .., .ok stmt => some (.stmt stmt)
  | .stmtGetQueryInfo .., .ok _ => fresh.map .info
  | _, _ => none

/-- Only the innermost handle can be given back. -/
def giveBack (c : Custody) (holding : Holding) : Option Custody :=
  match c.held with
  | [] => none
  | top :: rest => if top = holding then some { c with held := rest } else none

/-- The block has been allocated. -/
def allocated (c : Custody) (kind : BlockKind) (block : Nat) : Custody :=
  { c with
    fresh := if kind = .queryInfo then some block else c.fresh
    live := block :: c.live }

/-- Only a block that is live can be freed, and with it the query-info structure in it. -/
def freed (c : Custody) (block : Nat) : Option Custody :=
  if block ∈ c.live then
    let c' := { c with live := c.live.filter (· ≠ block) }
    if .info block ∈ c.held then c'.giveBack (.info block) else some c'
  else none

/-- Only handles that are held can be used. -/
def step (c : Custody) : Event → Option Custody
  | .call req result =>
      if ∀ holding ∈ req.uses, holding ∈ c.held then
        some { c with held := (acquired c.fresh req result).toList ++ c.held }
      else none
  | .alloc kind block => some (c.allocated kind block)
  | .release (.conn conn) => c.giveBack (.conn conn)
  | .release (.stmt stmt) => c.giveBack (.stmt stmt)
  | .free block => c.freed block
  | _ => some c

def run (c : Custody) (events : List Event) : Option Custody := events.foldlM step c

@[simp] theorem run_nil (c : Custody) : c.run [] = some c := rfl

@[simp] theorem run_cons (c : Custody) (event : Event) (events : List Event) :
    c.run (event :: events) = (c.step event).bind fun c' => c'.run events := rfl

@[simp] theorem run_append (c : Custody) (first rest : List Event) :
    c.run (first ++ rest) = (c.run first).bind fun c' => c'.run rest := by
  rw [run, List.foldlM_append]
  rfl

variable {fresh : Option Nat} {live : List Nat} {held : List Holding}

@[simp] theorem giveBack_top (fresh : Option Nat) (live : List Nat) (held : List Holding)
    (holding : Holding) :
    giveBack ⟨fresh, live, holding :: held⟩ holding = some ⟨fresh, live, held⟩ := if_pos rfl

theorem acquired_plain {req : Req} {result : Except DpiError req.Resp}
    (h : req.Acquires → ∃ err, result = .error err) : acquired fresh req result = none := by
  cases result with
  | error err => cases req <;> rfl
  | ok reply =>
      cases req <;> first
        | rfl
        | exact absurd (h trivial) (by simp)

theorem step_plain {event : Event} (h : event.Plain held) :
    step ⟨fresh, live, held⟩ event = some ⟨fresh, live, held⟩ := by
  cases event with
  | call req result => simpa [step, acquired_plain h.2] using h.1
  | release handle =>
      cases handle with
      | conn _ | stmt _ => exact h.elim
      | var _ | lob _ => rfl
  | alloc _ _ | free _ => exact h.elim
  | allocFailed _ | read _ => rfl

/-- A live block that holds no query-info structure is freed. -/
theorem step_free {block : Nat} (hlive : block ∈ live) (h : .info block ∉ held) :
    step ⟨fresh, live, held⟩ (.free block) = some ⟨fresh, live.filter (· ≠ block), held⟩ := by
  simp [step, freed, hlive, h]

theorem step_free_info {block : Nat} (hlive : block ∈ live) :
    step ⟨fresh, live, .info block :: held⟩ (.free block) =
      some ⟨fresh, live.filter (· ≠ block), held⟩ := by
  simp [step, freed, hlive]

/-- A query-info structure cannot be freed twice. -/
example : run ⟨none, [], [.stmt ⟨0⟩]⟩ [.alloc .queryInfo 0,
    .call (.stmtGetQueryInfo ⟨0⟩ 1) (.ok ⟨[], ⟨0, 0, 0, 0⟩, 0⟩), .free 0, .free 0] = none := rfl

/-- The live blocks before `n` are still live. -/
def Keeps (n : Nat) (live live' : List Nat) : Prop := ∀ block < n, block ∈ live → block ∈ live'

theorem Keeps.trans {n m : Nat} {live₁ live₂ live₃ : List Nat} (hle : n ≤ m)
    (hfirst : Keeps n live₁ live₂) (hrest : Keeps m live₂ live₃) : Keeps n live₁ live₃ :=
  fun block hlt hmem => hrest block (hlt.trans_le hle) (hfirst block hlt hmem)

/-- A block that is allocated and freed around others leaves the blocks before it. -/
theorem Keeps.around {n : Nat} {live live' : List Nat} (h : Keeps (n + 1) (n :: live) live') :
    n ∈ live' ∧ Keeps n live (live'.filter (· ≠ n)) := by
  refine ⟨h n (Nat.lt_succ_self n) List.mem_cons_self, fun block hlt hmem => ?_⟩
  have hkept := h block (by omega) (List.mem_cons_of_mem _ hmem)
  exact List.mem_filter.mpr ⟨hkept, by simpa using hlt.ne⟩

theorem info_lt_succ {n : Nat} (top : Holding) (htop : ∀ block, top = .info block → block ≤ n)
    (hinfo : ∀ block, .info block ∈ held → block < n) :
    ∀ block, .info block ∈ top :: held → block < n + 1 := by
  intro block hblock
  rcases List.mem_cons.mp hblock with heq | hmem
  · exact Nat.lt_succ_of_le (htop block heq.symm)
  · exact (hinfo block hmem).trans (Nat.lt_succ_self n)

/-- A well-nested trace uses held handles and live blocks only, and gives back exactly the handles
it acquires. -/
theorem run_nested {n n' : Nat} {events : List Event} (h : Nested held n events n')
    (hinfo : ∀ block, .info block ∈ held → block < n) (fresh : Option Nat) (live : List Nat) :
    n ≤ n' ∧ ∃ fresh' live', run ⟨fresh, live, held⟩ events = some ⟨fresh', live', held⟩ ∧
      Keeps n live live' := by
  induction h generalizing fresh live with
  | nil => exact ⟨le_rfl, fresh, live, rfl, fun _ _ => id⟩
  | append _ _ ihfirst ihrest =>
      obtain ⟨hle, fresh₁, live₁, hfirst, hkeeps⟩ := ihfirst hinfo fresh live
      obtain ⟨hle', fresh₂, live₂, hrest, hkeeps'⟩ :=
        ihrest (fun block hblock => (hinfo block hblock).trans_le hle) fresh₁ live₁
      exact ⟨hle.trans hle', fresh₂, live₂, by simp [hfirst, hrest], hkeeps.trans hle hkeeps'⟩
  | plain hevent => exact ⟨le_rfl, fresh, live, by simp [step_plain hevent], fun _ _ => id⟩
  | @text held n kind _ =>
      exact ⟨Nat.le_succ n, _, _, rfl, fun _ _ => List.mem_cons_of_mem _⟩
  | @clob held n lob amount length bytes =>
      refine ⟨Nat.le_succ _, fresh, n :: live, ?_, fun _ _ => List.mem_cons_of_mem _⟩
      simp [step, allocated, Req.uses, acquired]
  | @buffer held n n' kind event inner _ hevent _ _ ih =>
      have hnext := fun block hblock => (hinfo block hblock).trans (Nat.lt_succ_self n)
      obtain ⟨hle, fresh', live', hinner, hkeeps⟩ :=
        ih hnext (if kind = .queryInfo then some n else fresh) (n :: live)
      obtain ⟨hlive, hkeeps⟩ := hkeeps.around
      have hfree : .info n ∉ held := fun hmem => absurd (hinfo n hmem) (Nat.lt_irrefl n)
      refine ⟨by omega, fresh', _, ?_, hkeeps⟩
      have halloc : step ⟨fresh, live, held⟩ (.alloc kind n) =
          some ⟨if kind = .queryInfo then some n else fresh, n :: live, held⟩ := rfl
      simp [halloc, step_plain hevent, hinner, step_free hlive hfree]
  | @info held n n' stmt pos info inner hstmt _ ih =>
      have hnext := info_lt_succ (.info n) (fun block heq => by cases heq; rfl) hinfo
      obtain ⟨hle, fresh', live', hinner, hkeeps⟩ := ih hnext (some n) (n :: live)
      obtain ⟨hlive, hkeeps⟩ := hkeeps.around
      refine ⟨by omega, fresh', _, ?_, hkeeps⟩
      have hopen : run ⟨fresh, live, held⟩ [.alloc .queryInfo n,
          .call (.stmtGetQueryInfo stmt pos) (.ok info)] =
            some ⟨some n, n :: live, .info n :: held⟩ := by
        simp [step, allocated, Req.uses, hstmt, acquired]
      have hsplit := run_append ⟨fresh, live, held⟩ [.alloc .queryInfo n,
        .call (.stmtGetQueryInfo stmt pos) (.ok info)] (inner ++ [.free n])
      simp only [List.cons_append, List.nil_append] at hsplit
      rw [hsplit, hopen, Option.bind_some, run_append, hinner, Option.bind_some, run_cons,
        step_free_info hlive]
      rfl
  | @stmt held n n' conn sql stmt inner hconn _ ih =>
      have hnext := info_lt_succ (.stmt stmt) (fun block heq => by cases heq) hinfo
      obtain ⟨hle, fresh', live', hinner, hkeeps⟩ := ih hnext fresh (n :: live)
      obtain ⟨hlive, hkeeps⟩ := hkeeps.around
      have hfree : .info n ∉ held := fun hmem => absurd (hinfo n hmem) (Nat.lt_irrefl n)
      refine ⟨by omega, fresh', _, ?_, hkeeps⟩
      have hopen : run ⟨fresh, live, held⟩ [.alloc .stmt n,
          .call (.connPrepareStmt conn sql) (.ok stmt)] =
            some ⟨fresh, n :: live, .stmt stmt :: held⟩ := by
        simp [step, allocated, Req.uses, hconn, acquired]
      have hsplit := run_append ⟨fresh, live, held⟩ [.alloc .stmt n,
        .call (.connPrepareStmt conn sql) (.ok stmt)]
        (inner ++ [.release (.stmt stmt), .free n])
      have hgive : step ⟨fresh', live', .stmt stmt :: held⟩ (.release (.stmt stmt)) =
          some ⟨fresh', live', held⟩ := giveBack_top _ _ _ _
      simp only [List.cons_append, List.nil_append] at hsplit
      rw [hsplit, hopen, Option.bind_some, run_append, hinner, Option.bind_some, run_cons, hgive,
        Option.bind_some, run_cons, step_free hlive hfree]
      rfl
  | @conn held n n' username password connectString conn inner _ ih =>
      have hnext : ∀ block, .info block ∈ .conn conn :: held → block < n := by
        intro block hblock
        rcases List.mem_cons.mp hblock with heq | hmem
        · cases heq
        · exact hinfo block hmem
      obtain ⟨hle, fresh', live', hinner, hkeeps⟩ := ih hnext fresh live
      exact ⟨hle, fresh', live', by simp [step, Req.uses, acquired, hinner], hkeeps⟩

end Custody

variable {σ α ρ : Type} {env : Env σ}

/-- The programs that keep each connection and each statement inside the bracket it comes from. -/
inductive Scoped (env : Env σ) :
    List Connection → List Statement → {α : Type} → Eff (World σ) (Outcome α) → Prop
  | result {conns : List Connection} {stmts : List Statement} {α : Type} (r : Outcome α) :
      Scoped env conns stmts (pure r)
  | sequence {conns : List Connection} {stmts : List Statement} {α β : Type}
      {first : Eff (World σ) (Outcome α)} {rest : Outcome α → Eff (World σ) (Outcome β)}
      (hfirst : Scoped env conns stmts first) (hrest : ∀ r, Scoped env conns stmts (rest r)) :
      Scoped env conns stmts (first >>= rest)
  | withConnection {conns : List Connection} {stmts : List Statement} {α : Type}
      (cfg : ConnectInfo) {action : Connection → Eff (World σ) (Outcome α)}
      (haction : ∀ conn, Scoped env (conn :: conns) stmts (action conn)) :
      Scoped env conns stmts (withConnection env cfg action)
  | withStatement {conns : List Connection} {stmts : List Statement} {α : Type}
      {conn : Connection} (hconn : conn ∈ conns) (sql : String)
      {action : Statement → Eff (World σ) (Outcome α)}
      (haction : ∀ stmt, Scoped env conns (stmt :: stmts) (action stmt)) :
      Scoped env conns stmts (withStatement env conn sql action)
  | bind {conns : List Connection} {stmts : List Statement} {stmt : Statement}
      (hstmt : stmt ∈ stmts) (params : List BindParameter) :
      Scoped env conns stmts (bind env stmt params)
  | execute {conns : List Connection} {stmts : List Statement} {stmt : Statement}
      (hstmt : stmt ∈ stmts) : Scoped env conns stmts (execute env stmt)
  | fetchRaw {conns : List Connection} {stmts : List Statement} {stmt : Statement}
      (hstmt : stmt ∈ stmts) (fuel : Nat) : Scoped env conns stmts (fetchRaw env fuel stmt)
  | query {conns : List Connection} {stmts : List Statement} {conn : Connection}
      (hconn : conn ∈ conns) (fuel : Nat) (sql : String) (params : List BindParameter) :
      Scoped env conns stmts (query env fuel conn sql params)
  | queryRaw {conns : List Connection} {stmts : List Statement} {conn : Connection}
      (hconn : conn ∈ conns) (fuel : Nat) (sql : String) (params : List BindParameter) :
      Scoped env conns stmts (queryRaw env fuel conn sql params)
  | execute_ {conns : List Connection} {stmts : List Statement} {conn : Connection}
      (hconn : conn ∈ conns) (sql : String) (params : List BindParameter) :
      Scoped env conns stmts (execute_ env conn sql params)

/-- The handles in scope are held, and each statement's connection with it. -/
structure InCustody (held : List Holding) (conns : List Connection) (stmts : List Statement) :
    Prop where
  conn : ∀ conn ∈ conns, .conn conn.ptr ∈ held
  stmt : ∀ stmt ∈ stmts, .stmt stmt.ptr.stmt ∈ held ∧ .conn stmt.ptr.conn ∈ held

namespace InCustody

variable {held : List Holding} {conns : List Connection} {stmts : List Statement}

theorem withConn (h : InCustody held conns stmts) (conn : Connection) :
    InCustody (.conn conn.ptr :: held) (conn :: conns) stmts where
  conn conn' hmem := by
    rcases List.mem_cons.mp hmem with rfl | hmem
    · exact List.mem_cons_self
    · exact List.mem_cons_of_mem _ (h.conn conn' hmem)
  stmt stmt hmem :=
    (h.stmt stmt hmem).imp (List.mem_cons_of_mem _) (List.mem_cons_of_mem _)

theorem withStmt (h : InCustody held conns stmts) {stmt : Statement}
    (hconn : .conn stmt.ptr.conn ∈ held) :
    InCustody (.stmt stmt.ptr.stmt :: held) conns (stmt :: stmts) where
  conn conn hmem := List.mem_cons_of_mem _ (h.conn conn hmem)
  stmt stmt' hmem := by
    rcases List.mem_cons.mp hmem with rfl | hmem
    · exact ⟨List.mem_cons_self, List.mem_cons_of_mem _ hconn⟩
    · exact (h.stmt stmt' hmem).imp (List.mem_cons_of_mem _) (List.mem_cons_of_mem _)

end InCustody

/-- Every run of a scoped program is a well-nested trace. -/
theorem Scoped.tracks {conns : List Connection} {stmts : List Statement}
    {m : Eff (World σ) (Outcome α)} (h : Scoped env conns stmts m) {held : List Holding}
    (hheld : InCustody held conns stmts) : Tracks held m := by
  induction h generalizing held with
  | result r => exact Tracks.pure r
  | sequence _ _ ihfirst ihrest => exact (ihfirst hheld).seq fun r => ihrest r hheld
  | withConnection cfg _ ih => exact tracks_withConnection fun conn => ih conn (hheld.withConn conn)
  | withStatement hconn sql _ ih =>
      have hmem := hheld.conn _ hconn
      exact tracks_withStatement hmem (fun stmt hptr => ih stmt (hheld.withStmt (hptr ▸ hmem))) sql
  | bind hstmt params =>
      obtain ⟨hmem, hconn⟩ := hheld.stmt _ hstmt
      exact tracks_bind hmem hconn params
  | execute hstmt => exact tracks_execute (hheld.stmt _ hstmt).1
  | fetchRaw hstmt fuel => exact tracks_fetchRaw (hheld.stmt _ hstmt).1 fuel
  | query hconn fuel sql params =>
      rw [query_eq_queryRaw]
      exact tracks_queryRaw (hheld.conn _ hconn) fuel sql params
  | queryRaw hconn fuel sql params => exact tracks_queryRaw (hheld.conn _ hconn) fuel sql params
  | execute_ hconn sql params => exact tracks_execute_ (hheld.conn _ hconn) sql params

/-- The bracket returns what its body returns or the error of its acquisition. -/
def Returns (acquire : Eff (World σ) (Outcome ρ)) (body : ρ → Eff (World σ) (Outcome α))
    (release : ρ → Eff (World σ) Unit) (m : Eff (World σ) (Outcome α)) : Prop :=
  ∀ w r w', Runs m w r w' →
    (∃ err, Runs acquire w (.error err) w' ∧ r = .error err) ∨
      ∃ handle w₁ w₂, Runs acquire w (.ok handle) w₁ ∧ Runs (body handle) w₁ r w₂ ∧
        Runs (release handle) w₂ () w'

/-- The acquisition of a query-info structure, with the error a NULL stands for. -/
def acquireQueryInfo (env : Env σ) (stmt : OracleStmt) (column : Int32) :
    Eff (World σ) (Outcome (Nat × DpiQueryInfo)) := do
  match ← oracleQueryInfo env stmt column with
  | none =>
      let lasterr ← getLastError env
      return .error lasterr
  | some info => return .ok info

theorem returns_withConnection (cfg : ConnectInfo)
    (action : Connection → Eff (World σ) (Outcome α)) :
    Returns (connect env cfg) action (disconnect env) (withConnection env cfg action) := by
  intro w r w' hrun
  obtain ⟨connected, w₁, w₂, hacquire, huse, hrelease⟩ := runs_bracket.mp hrun
  cases connected with
  | error err =>
      cases huse
      cases hrelease
      exact .inl ⟨err, hacquire, rfl⟩
  | ok conn => exact .inr ⟨conn, w₁, w₂, hacquire, huse, hrelease⟩

theorem returns_withStatement (conn : Connection) (sql : String)
    (action : Statement → Eff (World σ) (Outcome α)) :
    Returns (prepare env conn sql) action (Statement.release env)
      (withStatement env conn sql action) := by
  intro w r w' hrun
  obtain ⟨prepared, w₁, w₂, hacquire, huse, hrelease⟩ := runs_bracket.mp hrun
  cases prepared with
  | error err =>
      cases huse
      cases hrelease
      exact .inl ⟨err, hacquire, rfl⟩
  | ok stmt => exact .inr ⟨stmt, w₁, w₂, hacquire, huse, hrelease⟩

theorem returns_withQueryInfo (stmt : OracleStmt) (column : Int32)
    (action : DpiQueryInfo → Eff (World σ) α) :
    Returns (acquireQueryInfo env stmt column) (fun info => .ok <$> action info.2)
      (fun info => oracleQueryInfoFree (some info)) (withQueryInfo env stmt column action) := by
  intro w r w' hrun
  obtain ⟨ptr, w₁, w₂, hacquire, huse, hfree⟩ := runs_bracket.mp hrun
  cases ptr with
  | none =>
      cases huse
      cases hfree
      exact .inl ⟨_, hacquire.bind rfl, rfl⟩
  | some info =>
      obtain ⟨a, w₃, haction, hreturn⟩ := runs_bind.mp huse
      cases hreturn
      exact .inr ⟨info, w₁, w₂, hacquire.bind rfl, runs_map.mpr ⟨a, haction, rfl⟩, hfree⟩

/-- A scoped program gives back each handle once, before the handle around it and after its use. -/
theorem scoped_gives_back {m : Eff (World σ) (Outcome α)} (hscoped : Scoped env [] [] m) :
    (∀ w r w', Runs m w r w' → ∃ delta fresh live, w'.log = w.log ++ delta ∧
      Custody.run ⟨none, [], []⟩ delta = some ⟨fresh, live, []⟩) ∧
    (∀ {β : Type} cfg (action : Connection → Eff (World σ) (Outcome β)),
      Returns (connect env cfg) action (disconnect env) (withConnection env cfg action)) ∧
    (∀ {β : Type} conn sql (action : Statement → Eff (World σ) (Outcome β)),
      Returns (prepare env conn sql) action (Statement.release env)
        (withStatement env conn sql action)) ∧
    ∀ {β : Type} stmt column (action : DpiQueryInfo → Eff (World σ) β),
      Returns (acquireQueryInfo env stmt column) (fun info => .ok <$> action info.2)
        (fun info => oracleQueryInfoFree (some info)) (withQueryInfo env stmt column action) := by
  refine ⟨fun w r w' hrun => ?_, returns_withConnection, returns_withStatement,
    returns_withQueryInfo⟩
  have hnone : InCustody [] [] [] := ⟨by simp, by simp⟩
  obtain ⟨delta, hlog, htrace⟩ := hscoped.tracks hnone w r w' hrun
  obtain ⟨-, fresh, live, hcustody, -⟩ := Custody.run_nested htrace (by simp) none []
  exact ⟨delta, fresh, live, hlog, hcustody⟩

/-- A program with a query inside a connection. -/
def readNumbers : Eff (World Listing) (Outcome (List (List OracleValue))) :=
  withConnection Listing.env ⟨"scott", "tiger", "localhost", 1521, "orcl"⟩ fun conn =>
    queryRaw Listing.env 2 conn "SELECT n FROM numbers" []

/-- The query has a row, for which a query-info structure is acquired. -/
theorem scoped_gives_back_readNumbers :
    ∃ w' delta fresh live, Runs readNumbers (World.initial (Listing.start [numberRow 5]))
        (.ok [[.oracleNumber (Float.ofBits 5)]]) w' ∧
      w'.log = [] ++ delta ∧ Custody.run ⟨none, [], []⟩ delta = some ⟨fresh, live, []⟩ := by
  have hscoped : Scoped Listing.env [] [] readNumbers :=
    .withConnection _ fun conn => .queryRaw List.mem_cons_self 2 _ _
  let cfg : ConnectInfo := ⟨"scott", "tiger", "localhost", 1521, "orcl"⟩
  let conn : Connection := ⟨⟨0⟩⟩
  let stmt : Statement := ⟨⟨0, ⟨0⟩, ⟨0⟩⟩⟩
  let w₀ := World.initial (Listing.start [numberRow 5])
  let w₁ := w₀.after (connect Listing.env cfg)
  let w₂ := w₁.after (prepare Listing.env conn "SELECT n FROM numbers")
  let w₃ := w₂.after (execute Listing.env stmt)
  let w₄ := w₃.after (oracleFetch Listing.env stmt.ptr)
  let w₅ := w₄.after (oracleColumnCount Listing.env stmt.ptr)
  let w₆ := w₅.after (decodeColumn Listing.env stmt.ptr 0)
  let w₇ := w₆.after (oracleFetch Listing.env stmt.ptr)
  let w₈ := w₇.after (stmt.release Listing.env)
  have hprepare : Runs (prepare Listing.env conn "SELECT n FROM numbers") w₁ (.ok stmt) w₂ := rfl
  have hbind : Runs (bind Listing.env stmt []) w₂ (.ok ()) w₂ := rfl
  have hexecute : Runs (execute Listing.env stmt) w₂ (.ok ()) w₃ := rfl
  have hfetch : Runs (oracleFetch Listing.env stmt.ptr) w₃ 1 w₄ := rfl
  have hcount : Runs (oracleColumnCount Listing.env stmt.ptr) w₄ 1 w₅ := rfl
  have hend : Runs (oracleFetch Listing.env stmt.ptr) w₆ 0 w₇ := rfl
  have hquery : Runs (queryRaw Listing.env 2 conn "SELECT n FROM numbers" []) w₁
      (.ok [[.oracleNumber (Float.ofBits 5)]]) w₈ :=
    runs_queryRaw_one hprepare hbind hexecute hfetch hcount rfl hend rfl
  have hconnect : Runs (connect Listing.env cfg) w₀ (.ok conn) w₁ := rfl
  have hrun : Runs readNumbers w₀ (.ok [[.oracleNumber (Float.ofBits 5)]])
      (w₈.after (disconnect Listing.env conn)) :=
    runs_bracket.mpr ⟨.ok conn, w₁, w₈, hconnect, hquery, rfl⟩
  have hgives := scoped_gives_back hscoped
  obtain ⟨delta, fresh, live, hlog, hcustody⟩ := hgives.1 _ _ _ hrun
  exact ⟨_, delta, fresh, live, hrun, hlog, hcustody⟩

end IdrisOracle
