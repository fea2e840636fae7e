import IdrisOracle.Trace
import IdrisOracle.Delivery

/-! Which blocks of the C layer are freed by the end of a query. -/

namespace IdrisOracle

open Effect

def Event.isFree (block : Nat) : Event → Bool
  | .free block' => block' = block
  | _ => false

def Event.isAlloc (kind : BlockKind) (block : Nat) : Event → Bool
  | .alloc kind' block' => kind' = kind ∧ block' = block
  | _ => false

/-- How often a block is freed. -/
def frees (block : Nat) (events : List Event) : Nat := events.countP (Event.isFree block)

def Event.readsText : Option Event → Prop
  | some (.call (.lobReadBytes ..) (.ok _)) => True
  | _ => False

/-- The event allocates the block for text, which the next event has to read if it is a CLOB's. -/
def Event.AllocatesText (block : Nat) (next : Option Event) : Event → Prop
  | .alloc kind block' =>
      block' = block ∧ (kind.IsText ∨ kind = .clobBuffer ∧ Event.readsText next)
  | _ => False

/-- The block holds text that Idris was given. -/
def TextBlock (block : Nat) : List Event → Prop
  | [] => False
  | event :: rest => event.AllocatesText block rest.head? ∨ TextBlock block rest

/-- An event that neither allocates nor frees. -/
def Event.Quiet : Event → Prop
  | .alloc .. | .free _ => False
  | _ => True

section Counting

variable {block : Nat} {event : Event} {events first rest : List Event}

@[simp] theorem frees_nil : frees block [] = 0 := rfl

@[simp] theorem frees_append : frees block (first ++ rest) = frees block first + frees block rest :=
  List.countP_append

theorem mem_of_isAlloc {kind : BlockKind} (h : events.any (Event.isAlloc kind block)) :
    .alloc kind block ∈ events := by
  obtain ⟨event, hmem, hevent⟩ := List.any_eq_true.mp h
  cases event with
  | alloc kind' block' =>
      obtain ⟨rfl, rfl⟩ : kind' = kind ∧ block' = block := by simpa [Event.isAlloc] using hevent
      exact hmem
  | _ => cases hevent

theorem frees_quiet (h : event.Quiet) : frees block [event] = 0 := by
  cases event with
  | free _ => exact h.elim
  | _ => rfl

@[simp] theorem frees_alloc (kind : BlockKind) (block' : Nat) :
    frees block [.alloc kind block'] = 0 := rfl

theorem frees_free (block' : Nat) :
    frees block [.free block'] = if block' = block then 1 else 0 := by
  by_cases h : block' = block <;> simp [frees, Event.isFree, h]

theorem allocatesText_quiet (h : event.Quiet) (next : Option Event) :
    ¬ event.AllocatesText block next := by
  cases event with
  | alloc _ _ => exact h.elim
  | _ => exact not_false

/-- No CLOB buffer is allocated at the very end. -/
def Closed (events : List Event) : Prop :=
  ∀ block, events.getLast? ≠ some (.alloc .clobBuffer block)

theorem textBlock_append (h : Closed first) :
    TextBlock block (first ++ rest) ↔ TextBlock block first ∨ TextBlock block rest := by
  induction first with
  | nil => simp [TextBlock]
  | cons event first ih =>
      cases first with
      | nil =>
          have hnext : event.AllocatesText block rest.head? ↔
              event.AllocatesText block none := by
            cases event with
            | alloc kind block' =>
                have hkind : kind ≠ .clobBuffer := by
                  rintro rfl
                  exact h block' rfl
                simp [Event.AllocatesText, hkind]
            | _ => exact Iff.rfl
          simp [TextBlock, hnext]
      | cons event' first =>
          have hclosed : Closed (event' :: first) := fun block' hlast =>
            h block' (by simpa using hlast)
          have hrest := ih hclosed
          simp only [List.cons_append, TextBlock, List.head?_cons] at hrest ⊢
          rw [hrest]
          simp only [or_assoc]

end Counting

/-- The blocks from the first number to before the last are allocated and all but text is freed. -/
structure Accounts (n : Nat) (events : List Event) (n' : Nat) : Prop where
  le : n ≤ n'
  allocated : ∀ block, (∃ kind, .alloc kind block ∈ events) ↔ n ≤ block ∧ block < n'
  own : ∀ block, TextBlock block events → n ≤ block ∧ block < n'
  freed : ∀ block, n ≤ block → block < n' → ¬ TextBlock block events → frees block events = 1
  kept : ∀ block, TextBlock block events → frees block events = 0
  foreign : ∀ block, block < n ∨ n' ≤ block → frees block events = 0
  closed : Closed events

namespace Accounts

variable {n m n' : Nat} {event : Event} {first rest inner : List Event} {kind : BlockKind}

theorem quiet (h : event.Quiet) (n : Nat) : Accounts n [event] n where
  le := le_rfl
  allocated block := by
    refine ⟨?_, fun hblock => by omega⟩
    rintro ⟨kind, hmem⟩
    obtain rfl := List.mem_singleton.mp hmem
    exact h.elim
  own block htext := by
    simp [TextBlock, allocatesText_quiet h] at htext
  freed block hlow hhigh := by omega
  kept block _ := frees_quiet h
  foreign block _ := frees_quiet h
  closed block hlast := by
    cases event with
    | alloc _ _ => exact h
    | _ => simp at hlast

theorem append (hfirst : Accounts n first m) (hrest : Accounts m rest n') :
    Accounts n (first ++ rest) n' where
  le := hfirst.le.trans hrest.le
  allocated block := by
    have hle := hfirst.le
    have hle' := hrest.le
    simp only [List.mem_append, exists_or, hfirst.allocated, hrest.allocated]
    omega
  own block htext := by
    have hle := hfirst.le
    have hle' := hrest.le
    rcases (textBlock_append hfirst.closed).mp htext with h | h
    · have hown := hfirst.own block h
      omega
    · have hown := hrest.own block h
      omega
  freed block hlow hhigh htext := by
    rw [textBlock_append hfirst.closed, not_or] at htext
    rw [frees_append]
    by_cases hblock : block < m
    · rw [hfirst.freed block hlow hblock htext.1, hrest.foreign block (.inl hblock)]
    · rw [hfirst.foreign block (.inr (by omega)), hrest.freed block (by omega) hhigh htext.2]
  kept block htext := by
    rw [frees_append]
    rcases (textBlock_append hfirst.closed).mp htext with h | h
    · have hown := hfirst.own block h
      rw [hfirst.kept block h, hrest.foreign block (by omega)]
    · have hown := hrest.own block h
      rw [hfirst.foreign block (by omega), hrest.kept block h]
  foreign block hblock := by
    have hle := hfirst.le
    have hle' := hrest.le
    rw [frees_append, hfirst.foreign block (by omega), hrest.foreign block (by omega)]
  closed block hlast := by
    cases rest with
    | nil => exact hfirst.closed block (by simpa using hlast)
    | cons event rest =>
        refine hrest.closed block ?_
        rw [List.getLast?_append] at hlast
        simpa using hlast

theorem nil (n : Nat) : Accounts n [] n where
  le := le_rfl
  allocated block := by
    refine ⟨?_, fun hblock => by omega⟩
    rintro ⟨kind, hmem⟩
    cases hmem
  own block htext := htext.elim
  freed block hlow hhigh := by omega
  kept block _ := rfl
  foreign block _ := rfl
  closed block hlast := by cases hlast

theorem text (h : kind.IsText) (n : Nat) : Accounts n [.alloc kind n] (n + 1) where
  le := Nat.le_succ n
  allocated block := by
    constructor
    · rintro ⟨kind', hmem⟩
      cases List.mem_singleton.mp hmem
      omega
    · intro hblock
      obtain rfl : block = n := by omega
      exact ⟨kind, List.mem_singleton_self _⟩
  own block htext := by
    rcases htext with ⟨rfl, -⟩ | htext
    · omega
    · exact htext.elim
  freed block hlow hhigh htext := by
    obtain rfl : block = n := by omega
    exact absurd (.inl ⟨rfl, .inl h⟩) htext
  kept block _ := rfl
  foreign block _ := rfl
  closed block hlast := by
    cases hlast
    exact h

theorem clob {lob : DpiLob} {amount length : UInt64} {bytes : List UInt8} (n : Nat) :
    Accounts n [.alloc .clobBuffer n, .call (.lobReadBytes lob 1 amount length) (.ok bytes)]
      (n + 1) where
  le := Nat.le_succ n
  allocated block := by
    constructor
    · rintro ⟨kind, hmem⟩
      simp at hmem
      omega
    · intro hblock
      obtain rfl : block = n := by omega
      exact ⟨.clobBuffer, List.mem_cons_self⟩
  own block htext := by
    rcases htext with ⟨rfl, -⟩ | htext
    · omega
    · simp [TextBlock, Event.AllocatesText] at htext
  freed block hlow hhigh htext := by
    obtain rfl : block = n := by omega
    exact absurd (.inl ⟨rfl, .inr ⟨rfl, trivial⟩⟩) htext
  kept block _ := rfl
  foreign block _ := rfl
  closed block hlast := by simp at hlast

/-- A block that is freed at the end, around others. -/
theorem wrap (hkind : ¬ kind.IsText) (hevent : event.Quiet)
    (hread : kind = .clobBuffer → ¬ Event.readsText (some event))
    (h : Accounts (n + 1) inner n') :
    Accounts n (.alloc kind n :: event :: (inner ++ [.free n])) n' := by
  have hle := h.le
  have htext : ∀ block, TextBlock block (.alloc kind n :: event :: (inner ++ [.free n])) ↔
      TextBlock block inner := by
    intro block
    have hfirst : ¬ (Event.alloc kind n).AllocatesText block (some event) := by
      rintro ⟨-, hkind' | ⟨rfl, hread'⟩⟩
      · exact hkind hkind'
      · exact hread rfl hread'
    have hlast : ¬ TextBlock block [.free n] := by simp [TextBlock, Event.AllocatesText]
    simp only [TextBlock, List.head?_cons, hfirst, allocatesText_quiet hevent, false_or]
    rw [textBlock_append h.closed, or_iff_left hlast]
  have hfrees : ∀ block, frees block (.alloc kind n :: event :: (inner ++ [.free n])) =
      frees block inner + if n = block then 1 else 0 := by
    intro block
    have hsplit : (.alloc kind n :: event :: (inner ++ [.free n]) : List Event) =
        [.alloc kind n] ++ ([event] ++ (inner ++ [.free n])) := rfl
    rw [hsplit, frees_append, frees_append, frees_append, frees_alloc, frees_quiet hevent,
      frees_free, Nat.zero_add, Nat.zero_add]
  refine ⟨by omega, fun block => ?_, fun block hown => ?_, fun block hlow hhigh hkept => ?_,
    fun block hkept => ?_, fun block hblock => ?_, fun block hlast => ?_⟩
  · constructor
    · rintro ⟨kind', hmem⟩
      rcases List.mem_cons.mp hmem with heq | hmem
      · cases heq
        omega
      · rcases List.mem_cons.mp hmem with rfl | hmem
        · exact hevent.elim
        · rcases List.mem_append.mp hmem with hmem | hmem
          · have hown := (h.allocated block).mp ⟨kind', hmem⟩
            omega
          · cases List.mem_singleton.mp hmem
    · intro hblock
      by_cases hn : block = n
      · subst hn
        exact ⟨kind, List.mem_cons_self⟩
      · obtain ⟨kind', hmem⟩ := (h.allocated block).mpr (by omega)
        exact ⟨kind', by simp [hmem]⟩
  · have hinner := h.own block ((htext block).mp hown)
    omega
  · rw [htext] at hkept
    rw [hfrees]
    by_cases hn : n = block
    · rw [if_pos hn, h.foreign block (.inl (by omega))]
    · rw [if_neg hn, h.freed block (by omega) hhigh hkept]
  · have hinner := (htext block).mp hkept
    have hown := h.own block hinner
    rw [hfrees, h.kept block hinner, if_neg (by omega)]
  · rw [hfrees, h.foreign block (by omega), if_neg (by omega)]
  · simp [List.getLast?_cons] at hlast

end Accounts

theorem Event.Plain.quiet {held : List Holding} {event : Event} (h : event.Plain held) :
    event.Quiet := by
  cases event with
  | alloc _ _ | free _ => exact h
  | _ => exact trivial

theorem Event.Failed.not_readsText {event : Event} (h : event.Failed) :
    ¬ Event.readsText (some event) := by
  cases event with
  | call req result =>
      cases result with
      | error err =>
          intro hreads
          cases req <;> exact hreads
      | ok reply => exact h.elim
  | _ => exact not_false

/-- A well-nested trace frees every block it allocates, but for text. -/
theorem accounts_nested {held : List Holding} {n n' : Nat} {events : List Event}
    (h : Nested held n events n') : Accounts n events n' := by
  induction h with
  | nil => exact .nil _
  | append _ _ ihfirst ihrest => exact ihfirst.append ihrest
  | plain hevent => exact .quiet hevent.quiet _
  | text hkind => exact .text hkind _
  | clob => exact .clob _
  | buffer hkind hevent hread _ ih =>
      exact .wrap hkind hevent.quiet (fun hclob => (hread hclob).not_readsText) ih
  | info _ _ ih => exact .wrap (by simp [BlockKind.IsText]) trivial (by simp) ih
  | @stmt held n n' conn sql stmt inner _ _ ih =>
      have hrelease : Accounts n' [.release (.stmt stmt)] n' := .quiet (by exact trivial) n'
      have hwrap : Accounts n (.alloc .stmt n :: .call (.connPrepareStmt conn sql) (.ok stmt) ::
          (inner ++ [.release (.stmt stmt)] ++ [.free n])) n' :=
        .wrap (by simp [BlockKind.IsText]) trivial (by simp) (ih.append hrelease)
      rwa [List.append_assoc] at hwrap
  | @conn held n n' username password connectString conn inner _ ih =>
      have hcall : Accounts n
          [.call (.connCreate username password connectString) (.ok conn)] n :=
        .quiet (by exact trivial) n
      have hrelease : Accounts n' [.release (.conn conn)] n' := .quiet (by exact trivial) n'
      exact hcall.append (ih.append hrelease)

variable {σ : Type} {env : Env σ} {conn : Connection} {sql : String}
  {params : List BindParameter} {fuel : Nat} {result : Outcome (List (List OracleValue))}
  {w w' : World σ}

/-- All blocks of a query are freed exactly once iff no text was handed to Idris. -/
theorem queryRaw_frees_iff (hrun : Runs (queryRaw env fuel conn sql params) w result w') :
    ∃ delta, w'.log = w.log ++ delta ∧
      ((∀ kind block, .alloc kind block ∈ delta → frees block delta = 1) ↔
        ∀ block, ¬ TextBlock block delta) := by
  have htracks : Tracks [.conn conn.ptr] (queryRaw env fuel conn sql params) :=
    tracks_queryRaw (List.mem_singleton_self _) fuel sql params
  obtain ⟨delta, hlog, htrace⟩ := htracks w result w' hrun
  have haccounts := accounts_nested htrace
  refine ⟨delta, hlog, fun hfreed block htext => ?_, fun hnone kind block hmem => ?_⟩
  · obtain ⟨kind, hmem⟩ := (haccounts.allocated block).mpr (haccounts.own block htext)
    have honce := hfreed kind block hmem
    rw [haccounts.kept block htext] at honce
    cases honce
  · obtain ⟨hlow, hhigh⟩ := (haccounts.allocated block).mp ⟨kind, hmem⟩
    exact haccounts.freed block hlow hhigh (hnone block)

theorem queryRaw_frees_empty :
    ∃ w', Runs (queryRaw Listing.env 1 ⟨⟨0⟩⟩ "SELECT n FROM numbers" [])
        (World.initial (Listing.start [])) (.ok []) w' ∧
      ∀ kind block, .alloc kind block ∈ w'.log → frees block w'.log = 1 := by
  have hrun : ∃ w', Runs (queryRaw Listing.env 1 ⟨⟨0⟩⟩ "SELECT n FROM numbers" [])
      (World.initial (Listing.start [])) (.ok []) w' ∧
      w'.log = [.alloc .stmt 0,
        .call (.connPrepareStmt ⟨0⟩ (counted (toC "SELECT n FROM numbers"))) (.ok ⟨0⟩),
        .call (.stmtExecute ⟨0⟩) (.ok ()), .call (.stmtFetch ⟨0⟩) (.ok false),
        .release (.stmt ⟨0⟩), .free 0] := ⟨_, rfl, rfl⟩
  obtain ⟨w', hrun, hlist⟩ := hrun
  refine ⟨w', hrun, ?_⟩
  obtain ⟨delta, hlog, hiff⟩ := queryRaw_frees_iff hrun
  obtain rfl : w'.log = delta := hlog
  refine hiff.mpr fun block htext => ?_
  rw [hlist] at htext
  simp [TextBlock, Event.AllocatesText, BlockKind.IsText] at htext

/-- The name of the one column of the one row is never freed. -/
theorem queryRaw_keeps_columnName :
    ∃ result w', Runs (queryRaw Listing.env 2 ⟨⟨0⟩⟩ "SELECT n FROM numbers" [])
        (World.initial (Listing.start [numberRow 0])) result w' ∧
      .alloc .infoName 2 ∈ w'.log ∧ frees 2 w'.log = 0 := by
  let E := Listing.env
  let stmt : Statement := ⟨⟨0, ⟨0⟩, ⟨0⟩⟩⟩
  let w₀ := World.initial (Listing.start [numberRow 0])
  let w₁ := ((prepare E ⟨⟨0⟩⟩ "SELECT n FROM numbers") w₀).elim w₀ Prod.snd
  let w₂ := ((execute E stmt) w₁).elim w₁ Prod.snd
  let w₃ := ((oracleFetch E stmt.ptr) w₂).elim w₂ Prod.snd
  let w₄ := ((oracleColumnCount E stmt.ptr) w₃).elim w₃ Prod.snd
  let w₅ := ((decodeColumn E stmt.ptr 0) w₄).elim w₄ Prod.snd
  let w₆ := ((oracleFetch E stmt.ptr) w₅).elim w₅ Prod.snd
  let w₇ := ((stmt.release E) w₆).elim w₆ Prod.snd
  have hprepare : Runs (prepare E ⟨⟨0⟩⟩ "SELECT n FROM numbers") w₀ (.ok stmt) w₁ := rfl
  have hbind : Runs (bind E stmt []) w₁ (.ok ()) w₁ := rfl
  have hexecute : Runs (execute E stmt) w₁ (.ok ()) w₂ := rfl
  have hfetch : Runs (oracleFetch E stmt.ptr) w₂ 1 w₃ := rfl
  have hcount : Runs (oracleColumnCount E stmt.ptr) w₃ 1 w₄ := rfl
  have hend : Runs (oracleFetch E stmt.ptr) w₅ 0 w₆ := rfl
  refine ⟨.ok [[.oracleNumber (Float.ofBits 0)]], w₇,
    runs_queryRaw_one hprepare hbind hexecute hfetch hcount rfl hend rfl, ?_, ?_⟩
  · exact mem_of_isAlloc (by decide +kernel)
  · decide +kernel

end IdrisOracle
