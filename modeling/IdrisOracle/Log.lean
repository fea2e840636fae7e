import IdrisOracle.Follows

/-! Every function of the library only adds to the log and keeps the context it finds. -/

namespace IdrisOracle

open Effect

variable {σ α β : Type} {env : Env σ}

/-- The log has grown from `w` to `w'` and a context has stayed. -/
structure Extends (w w' : World σ) : Prop where
  log : ∃ delta, w'.log = w.log ++ delta
  context : w.gContext = true → w'.gContext = true

theorem Extends.refl (w : World σ) : Extends w w := ⟨⟨[], by simp⟩, id⟩

theorem Extends.trans (u v w : World σ) (huv : Extends u v) (hvw : Extends v w) : Extends u w := by
  obtain ⟨⟨d₁, h₁⟩, hcontext₁⟩ := huv
  obtain ⟨⟨d₂, h₂⟩, hcontext₂⟩ := hvw
  exact ⟨⟨d₁ ++ d₂, by simp [h₁, h₂]⟩, hcontext₂ ∘ hcontext₁⟩

/-- No call and no release is an exception. -/
theorem follows_extends (env : Env σ) :
    Follows env (fun _ => True) (fun _ => True) (Extends : World σ → World σ → Prop) where
  refl := Extends.refl
  trans := Extends.trans
  called _ _ _ := ⟨⟨_, rfl⟩, id⟩
  released _ _ _ := ⟨⟨_, rfl⟩, id⟩
  stored _ _ _ := ⟨⟨[], by simp⟩, id⟩
  allocated _ _ _ := ⟨⟨_, rfl⟩, id⟩
  refused _ _ _ _ := ⟨⟨_, rfl⟩, id⟩
  freed _ _ := ⟨⟨_, rfl⟩, id⟩
  read _ _ := ⟨⟨_, rfl⟩, id⟩
  captured _ _ := ⟨⟨[], by simp⟩, id⟩
  ready _ := ⟨⟨[], by simp⟩, fun _ => rfl⟩

abbrev Grows (m : Eff (World σ) α) : Prop := Preserves Extends m

theorem grows_pure (a : α) : Grows (pure a : Eff (World σ) α) := Preserves.pure Extends.refl a

theorem Grows.seq {m : Eff (World σ) α} {f : α → Eff (World σ) β} (hm : Grows m)
    (hf : ∀ a, Grows (f a)) : Grows (m >>= f) :=
  Preserves.bind hm Extends.trans hf

theorem grows_value (dataptr : DpiData) (ty : OracleType) :
    Grows (decodeColumn.value env dataptr ty) :=
  preserves_value (follows_extends env) trivial (fun _ => trivial) _

theorem grows_cell (stmt : OracleStmt) (column : Int32) (ty : OracleType) :
    Grows (decodeColumn.cell env stmt column ty) :=
  preserves_cell (follows_extends env) trivial _ _ fun _ => grows_value _ _

theorem grows_decodeColumn (stmt : OracleStmt) (column : Int32) :
    Grows (decodeColumn env stmt column) :=
  preserves_decodeColumn (follows_extends env) trivial _ _ fun _ => grows_cell _ _ _

theorem grows_fetchRow (stmt : Statement) : Grows (fetchRow env stmt) :=
  preserves_fetchRow (follows_extends env) trivial trivial _ fun _ => grows_decodeColumn _ _

section Starts

/-- Release and free are cleanups, whose outcome the library does not look at. -/
def Event.isCleanup : Event → Bool
  | .release _ | .free _ => true
  | _ => false

/-- Every run of the computation begins with an event that is no cleanup. -/
def Starts (m : Eff (World σ) α) : Prop :=
  ∀ w a w', Runs m w a w' →
    ∃ event rest, w'.log = w.log ++ event :: rest ∧ event.isCleanup = false

theorem Starts.seq {m : Eff (World σ) α} {f : α → Eff (World σ) β} (hm : Starts m)
    (hf : ∀ a, Grows (f a)) : Starts (m >>= f) := by
  intro w b w'' hrun
  obtain ⟨a, w', hfirst, hrest⟩ := runs_bind.mp hrun
  obtain ⟨event, rest, hlog, hevent⟩ := hm _ _ _ hfirst
  obtain ⟨⟨delta, hdelta⟩, -⟩ := (hf a).of_runs hrest
  exact ⟨event, rest ++ delta, by simp [hdelta, hlog], hevent⟩

theorem starts_odpi (req : Req) : Starts (odpi env req) := by
  intro w a w' hrun
  cases hrun
  exact ⟨_, [], rfl, rfl⟩

theorem starts_malloc (kind : BlockKind) (size : Nat) : Starts (malloc env kind size) := by
  intro w a w' hrun
  rw [Runs, malloc_apply] at hrun
  split at hrun <;> cases hrun <;> exact ⟨_, _, rfl, rfl⟩

theorem starts_oracleQueryInfo (stmt : OracleStmt) (column : Int32) :
    Starts (oracleQueryInfo env stmt column) := by
  have F := follows_extends env
  refine (starts_malloc _ _).seq fun block => ?_
  cases block with
  | none => exact grows_pure _
  | some block =>
      refine preserves_call F trivial (fun _ => ?_) fun _ => grows_pure _
      exact F.seq (preserves_free F _) fun _ => preserves_captured F _

theorem starts_cell (stmt : OracleStmt) (column : Int32) (ty : OracleType) :
    Starts (decodeColumn.cell env stmt column ty) := by
  have F := follows_extends env
  have hvalue : Starts (oracleColumnValue env stmt column) := by
    refine (starts_odpi _).seq fun result => ?_
    cases result with
    | error err => exact preserves_captured F _
    | ok reply => exact grows_pure _
  refine hvalue.seq fun data => ?_
  cases data with
  | none => exact F.seq (preserves_getLastError F) fun _ => grows_pure _
  | some data =>
      dsimp only
      split
      · exact grows_pure _
      · exact grows_value _ _

theorem starts_decodeColumn (stmt : OracleStmt) (column : Int32) :
    Starts (decodeColumn env stmt column) := by
  have F := follows_extends env
  have hinfo : Starts (getColumnInfo env stmt column) :=
    (starts_oracleQueryInfo _ _).seq fun _ =>
      F.seq (preserves_withQueryInfo_use F (preserves_columnInfo F) _) fun _ =>
        F.seq (preserves_oracleQueryInfoFree F _) fun _ => grows_pure _
  refine hinfo.seq fun info => ?_
  cases info with
  | error err => exact grows_pure _
  | ok info => exact grows_cell _ _ _

end Starts

end IdrisOracle
