import IdrisOracle.Log

/-! A fetch loop over finitely many rows returns. -/

namespace IdrisOracle

open Effect

variable {σ : Type} {env : Env σ}

/-- If the fetches return with enough fuel, a query does. -/
theorem returns_queryRaw_of_fetchRaw (conn : Connection) (sql : String)
    (params : List BindParameter) (w : World σ)
    (hfetch : ∀ stmt w, ∃ bound, ∀ fuel, bound ≤ fuel →
      ∃ result w', Runs (fetchRaw env fuel stmt) w result w') :
    ∃ bound, ∀ fuel, bound ≤ fuel →
      ∃ result w', Runs (queryRaw env fuel conn sql params) w result w' := by
  have F := follows_extends env
  obtain ⟨stmt, w₁, hprepare, -⟩ := preserves_prepare F trivial conn sql w
  cases stmt with
  | error err =>
      refine ⟨0, fun fuel _ => ⟨.error err, w₁, ?_⟩⟩
      exact runs_bracket.mpr ⟨_, w₁, w₁, hprepare, Runs.pure _ _, Runs.pure _ _⟩
  | ok stmt =>
      suffices haction : ∃ bound, ∀ fuel, bound ≤ fuel → ∃ result w₂,
          Runs (andThen (bind env stmt params) fun _ =>
            andThen (execute env stmt) fun _ => fetchRaw env fuel stmt) w₁ result w₂ by
        obtain ⟨bound, hbound⟩ := haction
        refine ⟨bound, fun fuel hfuel => ?_⟩
        obtain ⟨result, w₂, haction⟩ := hbound fuel hfuel
        obtain ⟨_, w₃, hrelease, -⟩ := preserves_oracleReleaseStmt F trivial stmt.ptr w₂
        exact ⟨result, w₃, runs_bracket.mpr ⟨_, w₁, w₂, hprepare, haction, hrelease⟩⟩
      obtain ⟨outcome, w₂, hbind, -⟩ := preserves_bind F trivial trivial stmt params w₁
      cases outcome with
      | error err => exact ⟨0, fun _ _ => ⟨_, w₂, runs_andThen.mpr (.inl ⟨err, hbind, rfl⟩)⟩⟩
      | ok u =>
          obtain ⟨executed, w₃, hexecute, -⟩ := preserves_execute F trivial stmt w₂
          cases executed with
          | error err =>
              refine ⟨0, fun _ _ => ⟨.error err, w₃, runs_andThen.mpr (.inr ⟨u, w₂, hbind, ?_⟩)⟩⟩
              exact runs_andThen.mpr (.inl ⟨err, hexecute, rfl⟩)
          | ok v =>
              obtain ⟨bound, hbound⟩ := hfetch stmt w₃
              refine ⟨bound, fun fuel hfuel => ?_⟩
              obtain ⟨result, w', hloop⟩ := hbound fuel hfuel
              refine ⟨result, w', runs_andThen.mpr (.inr ⟨u, w₂, hbind, ?_⟩)⟩
              exact runs_andThen.mpr (.inr ⟨v, w₃, hexecute, hloop⟩)

/-- What is done with a fetched row: everything but opening and reading the result. -/
def Req.Group.OnRow : Req.Group → Prop
  | .describe | .value | .lob => True
  | _ => False

/-- A row was fetched, and what was done with it keeps the relation. -/
theorem fetched_of_fetchRow {releases : HandleKind → Prop} {R : World σ → World σ → Prop}
    (F : Follows env Req.Group.OnRow releases R) (hlob : releases .lob) {stmt : Statement}
    {values : List OracleValue} {w w' : World σ}
    (hrun : Runs (fetchRow env stmt) w (.ok (some values)) w') :
    (env.call (.stmtFetch stmt.ptr.stmt) w.odpi).1 = .ok true ∧
      R (w.called env (.stmtFetch stmt.ptr.stmt)) w' := by
  have hdecode : ∀ column, Preserves R (decodeColumn env stmt.ptr column) := fun column =>
    preserves_decodeColumn F trivial stmt.ptr column fun ty =>
      preserves_cell F trivial stmt.ptr column fun data =>
        preserves_value F trivial (fun _ => hlob) data
  obtain ⟨rc, w₁, hfetch, hrest⟩ := runs_bind.mp hrun
  cases hcall : (env.call (.stmtFetch stmt.ptr.stmt) w.odpi).1 with
  | error failure =>
      simp [Runs, oracleFetch, hcall] at hfetch
      obtain ⟨rfl, rfl⟩ := hfetch
      cases hrest
  | ok found =>
      simp [Runs, oracleFetch, hcall] at hfetch
      obtain ⟨rfl, rfl⟩ := hfetch
      cases found with
      | false => cases hrest
      | true =>
          obtain ⟨count, w₂, hcount, hgo⟩ := runs_bind.mp hrest
          obtain ⟨row, w₃, hgo, hreturn⟩ := runs_bind.mp hgo
          have hcounted := (preserves_oracleColumnCount F trivial stmt.ptr).of_runs hcount
          have hdecoded := (preserves_go F stmt count 0 [] hdecode).of_runs hgo
          have hend : w' = w₃ := by
            cases row <;> cases hreturn
            rfl
          exact ⟨rfl, hend ▸ F.trans _ _ _ hcounted hdecoded⟩

/-- The fetch loop returns if every row it fetches leaves fewer to come. -/
theorem returns_loop {stmt : Statement} (remaining : σ → Nat)
    (hless : ∀ values w w', Runs (fetchRow env stmt) w (.ok (some values)) w' →
      remaining w'.odpi < remaining w.odpi) {fuel : Nat} (acc : List (List OracleValue))
    {w : World σ} (hfuel : remaining w.odpi < fuel) :
    ∃ result w', Runs (fetchRaw.loop env stmt fuel acc) w result w' := by
  induction fuel generalizing acc w with
  | zero => exact absurd hfuel (Nat.not_lt_zero _)
  | succ fuel ih =>
      have hgrows : Grows (fetchRow env stmt) := grows_fetchRow stmt
      obtain ⟨row, w₁, hrow, -⟩ := hgrows w
      cases row with
      | error err => exact ⟨.error err, w₁, hrow.bind (Runs.pure _ _)⟩
      | ok row =>
          cases row with
          | none => exact ⟨.ok acc.reverse, w₁, hrow.bind (Runs.pure _ _)⟩
          | some values =>
              have hfuel' : remaining w₁.odpi < fuel := by
                have hfewer := hless values w w₁ hrow
                omega
              obtain ⟨result, w', hloop⟩ := ih (values :: acc) hfuel'
              exact ⟨result, w', hrow.bind hloop⟩

/-- A result that runs out of rows. -/
structure FiniteRows (env : Env σ) where
  remaining : σ → Nat
  fetched : ∀ stmt s, (env.call (.stmtFetch stmt) s).1 = .ok true →
    remaining (env.call (.stmtFetch stmt) s).2 < remaining s
  called : ∀ req s, req.group.OnRow → remaining (env.call req s).2 ≤ remaining s
  released : ∀ handle s, remaining (env.release handle s) ≤ remaining s
  stored : ∀ var data s, remaining (env.storeVar var data s) ≤ remaining s
  allocated : ∀ kind size s, remaining (env.malloc kind size s).2 ≤ remaining s

namespace FiniteRows

variable (rows : FiniteRows env)

def Keeps (w w' : World σ) : Prop := rows.remaining w'.odpi ≤ rows.remaining w.odpi

theorem follows_keeps : Follows env Req.Group.OnRow (fun _ => True) rows.Keeps where
  refl _ := le_rfl
  trans _ _ _ huv hvw := le_trans hvw huv
  called req w h := rows.called req w.odpi h
  released handle w _ := rows.released handle w.odpi
  stored var data w := rows.stored var data w.odpi
  allocated kind size w := rows.allocated kind size w.odpi
  refused kind size w _ := rows.allocated kind size w.odpi
  freed _ _ := le_rfl
  read _ _ := le_rfl
  captured _ _ := le_rfl
  ready _ := le_rfl

/-- A row that was fetched is no longer in the result. -/
theorem remaining_fetchRow {stmt : Statement} {values : List OracleValue} {w w' : World σ}
    (hrun : Runs (fetchRow env stmt) w (.ok (some values)) w') :
    rows.remaining w'.odpi < rows.remaining w.odpi := by
  obtain ⟨hfetch, hkeeps⟩ := fetched_of_fetchRow rows.follows_keeps trivial hrun
  exact lt_of_le_of_lt hkeeps (rows.fetched _ _ hfetch)

include rows in
/-- With enough fuel a query returns. -/
theorem returns_queryRaw (conn : Connection) (sql : String) (params : List BindParameter)
    (w : World σ) :
    ∃ bound, ∀ fuel, bound ≤ fuel →
      ∃ result w', Runs (queryRaw env fuel conn sql params) w result w' := by
  refine returns_queryRaw_of_fetchRaw conn sql params w fun stmt w₁ => ?_
  refine ⟨rows.remaining w₁.odpi + 1, fun fuel hfuel => ?_⟩
  exact returns_loop _ (fun _ _ _ hrow => rows.remaining_fetchRow hrow) [] hfuel

end FiniteRows

end IdrisOracle
