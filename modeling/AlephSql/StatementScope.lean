import AlephSql.Handles

/-! Where a statement is used. The text parameters are bound as `SQLITE_STATIC`: the engine
keeps the pointers, and the buffers are gone when the call that has bound them returns. -/
namespace AlephSql
namespace StatementScope

open Sqlite Database CallSteps Transition Handles

variable {O : Type} [DecidableEq O] {E : Engine}

/-- A program: its actions, each with the API calls that it has made, the latest first. -/
inductive Course (E : Engine) : List (Action O × History) → World O → Prop
  | init : Course E [] ⟨fun _ => none,[]⟩
  | step {course : List (Action O × History)} {w w' : World O} {a : Action O}
      (es : History) (h : Course E course w) (act : Step E w a w')
      (made : w'.calls = es ++ w.calls) : Course E ((a,es) :: course) w'

/-- Some of the calls prepare `s`, bind to it, step it or read it. -/
def Touches (s : StmtId) (es : History) : Prop :=
  s ∈ (prepared es).map Prod.fst ∨ ∃ e ∈ es, e.stmt = some (some s)

def argsOf (call : Call) : List Paramter := ((statementOf call).map Prod.snd).getD []

/-- Whatever comes before the calls, all values bound to `s` after them are arguments of the call,
in their places. -/
def OwnValues (args : List Paramter) (s : StmtId) (es : History) : Prop :=
  ∀ (h : History) index v, boundAt s index (es ++ h) = some v →
    ∃ k p, args[k]? = some p ∧ index = k+1 ∧ v = bound p

/-- Every statement that is stepped has been bound to arguments of the call only. -/
def StepsOwn (args : List Paramter) (es : History) : Prop :=
  ∀ later s ret earlier, es = later ++ .step (some s) ret :: earlier → OwnValues args s earlier

section Calls

variable {args : List Paramter} {s : StmtId} {es : History} {e : Sqlite.Event}

theorem prepared_cons (e : Sqlite.Event) (es : History) :
    prepared (e :: es) = e.prepares.toList ++ prepared es := filterMap_cons_toList _ _ _

theorem prepares_of_stmt {x : Option StmtId} (he : e.stmt = some x) : e.prepares = none := by
  cases e <;> first | rfl | cases he

theorem touches_cons (he : e.prepares = none) (h : Touches s (e :: es)) :
    e.stmt = some (some s) ∨ Touches s es := by
  rcases h with hp | ⟨x,hx,hs⟩
  · rw [prepared_cons,he] at hp
    exact .inr (.inl hp)
  · rcases List.mem_cons.mp hx with rfl | hx
    · exact .inl hs
    · exact .inr (.inr ⟨x,hx,hs⟩)

theorem OwnValues.cons (h : OwnValues args s es) (he : ∀ index, e.binds s index = none) :
    OwnValues args s (e :: es) := by
  intro rest index v hv
  rw [List.cons_append,boundAt,latest_cons_none (he index)] at hv
  exact h rest index v hv

theorem ownValues_prepare (conn : Option ConnId) (sql : String) (ret : ℤ) :
    OwnValues args s (.prepareV2 conn sql ret (some s) :: es) := by
  intro rest index v hv
  simp [boundAt,latest_cons,Sqlite.Event.binds] at hv

theorem OwnValues.bind (h : OwnValues args s es) {k : ℕ} {p : Paramter} (hp : args[k]? = some p)
    (x : Option StmtId) (ret : ℤ) : OwnValues args s (.bind x (k+1) (bound p) ret :: es) := by
  intro rest index v hv
  rw [List.cons_append,boundAt,latest_cons] at hv
  by_cases hmine : x = some s ∧ k+1 = index ∧ ret = SQLITE_OK
  · simp only [Sqlite.Event.binds,if_pos hmine,Option.getD_some,Option.some.injEq] at hv
    exact ⟨k,p,hp,hmine.2.1.symm,hv.symm⟩
  · simp only [Sqlite.Event.binds,if_neg hmine,Option.getD_none] at hv
    exact h rest index v hv

theorem StepsOwn.cons (h : StepsOwn args es)
    (he : ∀ s ret, e = .step (some s) ret → OwnValues args s es) : StepsOwn args (e :: es) := by
  intro later s ret earlier heq
  cases later with
  | nil =>
    obtain ⟨rfl,rfl⟩ := List.cons.inj heq
    exact he s ret rfl
  | cons x later =>
    obtain ⟨rfl,rfl⟩ := List.cons.inj heq
    exact h later s ret earlier rfl

end Calls

/-- Where a call stands that has begun after `h` and has made the API calls `es`. -/
structure Within (args : List Paramter) (h es : History) (d : Db) (p : CallPc) : Prop where
  calls : d.calls = es ++ h
  scope : ∀ s, Touches s es → s ∈ (prepared es).map Prod.fst
  fresh : ∀ s ∈ (prepared es).map Prod.fst, s ∉ (prepared h).map Prod.fst
  current : usesStatement p = true → ∀ s, d.self.sqliteStmt = some s →
    s ∈ (prepared es).map Prod.fst ∧ OwnValues args s es
  place : ∀ index rest, p = .bind index rest → ∃ k, index = k+1 ∧ rest = args.drop k
  steps : StepsOwn args es

section Within

variable {args : List Paramter} {h es : History} {d d' : Db} {p p' : CallPc} {e : Sqlite.Event}

theorem within_start (h : History) (self : Object) : Within args h [] ⟨self,h⟩ .start where
  calls := rfl
  scope s hs := by
    rcases hs with hs | ⟨e,he,-⟩
    · exact hs
    · cases he
  fresh s hs := by cases hs
  current hp := by cases hp
  place index rest hp := by cases hp
  steps later s ret earlier heq := by cases later <;> cases heq

theorem Within.silent (hw : Within args h es d p)
    (keeps : usesStatement p' = usesStatement p) (hp : ∀ index rest, p' ≠ .bind index rest) :
    Within args h es d p' :=
  ⟨hw.calls,hw.scope,hw.fresh,fun hp' => hw.current (keeps ▸ hp'),
    fun index rest heq => absurd heq (hp index rest),hw.steps⟩

theorem Within.scope_cons (hw : Within args h es d p) (he : e.prepares = none)
    (hmine : ∀ s, e.stmt = some (some s) → s ∈ (prepared es).map Prod.fst) :
    (∀ s, Touches s (e :: es) → s ∈ (prepared (e :: es)).map Prod.fst) ∧
      ∀ s ∈ (prepared (e :: es)).map Prod.fst, s ∉ (prepared h).map Prod.fst := by
  rw [prepared_cons,he]
  refine ⟨fun s hs => ?_,hw.fresh⟩
  rcases touches_cons he hs with hs | hs
  · exact hmine s hs
  · exact hw.scope s hs

theorem Within.quiet (hw : Within args h es d p) (he : e.prepares = none) (hstmt : e.stmt = none)
    (hd : d'.calls = e :: d.calls) (hp : usesStatement p' = false) :
    Within args h (e :: es) d' p' := by
  obtain ⟨hscope,hfresh⟩ := hw.scope_cons he fun s hs => by simp [hstmt] at hs
  refine ⟨by rw [hd,hw.calls]; rfl,hscope,hfresh,fun hp' => absurd (hp'.symm.trans hp) (by decide),
    fun index rest heq => ?_,hw.steps.cons fun s ret heq => ?_⟩
  · simp [heq] at hp
  · simp [heq,Sqlite.Event.stmt] at hstmt

theorem Within.use (hw : Within args h es d p) (hp : usesStatement p = true)
    (hstmt : e.stmt = some d.self.sqliteStmt)
    (hvalues : ∀ s, OwnValues args s es → OwnValues args s (e :: es))
    (hplace : ∀ index rest, p' = .bind index rest → ∃ k, index = k+1 ∧ rest = args.drop k) :
    Within args h (e :: es) (d.log e) p' := by
  have hmine : ∀ s, e.stmt = some (some s) →
      s ∈ (prepared es).map Prod.fst ∧ OwnValues args s es := fun s hs =>
    hw.current hp s (Option.some.inj (hstmt.symm.trans hs))
  have he := prepares_of_stmt hstmt
  obtain ⟨hscope,hfresh⟩ := hw.scope_cons he fun s hs => (hmine s hs).1
  refine ⟨congrArg (e :: ·) hw.calls,hscope,hfresh,fun _ s hs => ?_,hplace,
    hw.steps.cons fun s ret heq => (hmine s (by rw [heq]; rfl)).2⟩
  obtain ⟨hprepared,hown⟩ := hw.current hp s hs
  rw [prepared_cons,he]
  exact ⟨hprepared,hvalues s hown⟩

/-- The prepare of a call gives it a statement that no earlier call has had. -/
theorem Within.prepare (hfresh : PrepareFresh E) (hw : Within args h es d p) (sql : String)
    (hp : ∀ index rest, p' = .bind index rest → index = 1 ∧ rest = args) :
    ∃ es', Within args h es' (d.prepareV2 E sql).2 p' := by
  let answer := E.prepareV2 d.calls d.self.sqlitePtr (cString sql)
  let call : Sqlite.Event := .prepareV2 d.self.sqlitePtr (cString sql) answer.1 answer.2
  have hmem : ∀ s, s ∈ (prepared (call :: es)).map Prod.fst ↔
      answer.2 = some s ∨ s ∈ (prepared es).map Prod.fst := by
    intro s
    rw [prepared_cons]
    cases h : answer.2 <;> simp [call,Sqlite.Event.prepares,h,eq_comm]
  refine ⟨call :: es,congrArg (call :: ·) hw.calls,fun s hs => ?_,fun s hs => ?_,
    fun _ s hs => ?_,fun index rest heq => ?_,hw.steps.cons fun s ret heq => by simp [call] at heq⟩
  · rcases hs with hs | ⟨e,he,hs⟩
    · exact hs
    · rcases List.mem_cons.mp he with rfl | he
      · cases hs
      · exact (hmem s).mpr (.inr (hw.scope s (.inr ⟨e,he,hs⟩)))
  · rcases (hmem s).mp hs with hs | hs
    · intro hold
      refine hfresh d.calls d.self.sqlitePtr (cString sql) s hs ?_
      rw [hw.calls,prepared,List.filterMap_append,List.map_append]
      exact List.mem_append_right _ hold
    · exact hw.fresh s hs
  · have hout : answer.2 = some s := hs
    refine ⟨(hmem s).mpr (.inl hout),?_⟩
    simp only [call,hout]
    exact ownValues_prepare _ _ _
  · obtain ⟨rfl,rfl⟩ := hp index rest heq
    exact ⟨0,rfl,rfl⟩

variable {call : Call}

/-- One action of a call. -/
theorem within_step (hfresh : PrepareFresh E) (hw : Within (argsOf call) h es d p)
    (hstep : callStep E call d p = some (d',p')) : ∃ es', Within (argsOf call) h es' d' p' := by
  cases p with
  | start =>
    cases call with
    | openSqliteDatabase name =>
      simp only [callStep] at hstep
      split at hstep
      · cases hstep
        exact ⟨es,hw.silent rfl (by simp)⟩
      · split at hstep <;> cases hstep <;> exact ⟨_,hw.quiet rfl rfl rfl rfl⟩
    | executeSqlite sql args | executeSqliteSelect sql args =>
      simp only [callStep] at hstep
      split at hstep <;> cases hstep <;> exact ⟨es,hw.silent rfl (by simp)⟩
  | prepare =>
    cases call with
    | openSqliteDatabase name => cases hstep
    | executeSqlite sql args | executeSqliteSelect sql args =>
      simp only [callStep] at hstep
      split at hstep <;> cases hstep
      · exact hw.prepare hfresh sql (by simp)
      · refine hw.prepare hfresh sql fun index rest heq => ?_
        cases heq
        exact ⟨rfl,rfl⟩
  | compileErrmsg ret => cases call <;> cases hstep <;> exact ⟨_,hw.quiet rfl rfl rfl rfl⟩
  | bind index rest =>
    obtain ⟨k,rfl,hrest⟩ := hw.place index rest rfl
    cases rest with
    | nil => cases call <;> cases hstep <;> exact ⟨es,hw.silent rfl (by simp)⟩
    | cons q rest =>
      cases hstep
      have hq : (argsOf call)[k]? = some q := by
        rw [← List.head?_drop,← hrest]
        rfl
      refine ⟨_,hw.use rfl rfl (fun s hs => hs.bind hq _ _) fun index' rest' heq => ?_⟩
      cases heq
      refine ⟨k+1,rfl,?_⟩
      rw [← List.tail_drop,← hrest]
      rfl
  | executeStep =>
    simp only [callStep] at hstep
    split at hstep <;> cases hstep <;>
      exact ⟨_,hw.use rfl rfl (fun s hs => hs.cons fun _ => rfl) (by simp)⟩
  | selectStep count rows =>
    simp only [callStep] at hstep
    split at hstep <;> cases hstep <;>
      exact ⟨_,hw.use rfl rfl (fun s hs => hs.cons fun _ => rfl) (by simp)⟩
  | columnCount =>
    cases hstep
    exact ⟨_,hw.use rfl rfl (fun s hs => hs.cons fun _ => rfl) (by simp)⟩
  | columnText count rows remaining index row =>
    cases remaining with
    | zero =>
      cases hstep
      exact ⟨es,hw.silent rfl (by simp)⟩
    | succ k =>
      cases hstep
      exact ⟨_,hw.use rfl rfl (fun s hs => hs.cons fun _ => rfl) (by simp)⟩
  | openErrmsg | changes | stepErrmsg =>
    cases hstep
    exact ⟨_,hw.quiet rfl rfl rfl rfl⟩
  | done outcome => cases hstep

theorem within_runCall (hfresh : PrepareFresh E) {self : Object} {fuel : ℕ} {out : Outcome}
    (hrun : runCall E fuel ⟨self,h⟩ call = some (out,d)) :
    ∃ es, Within (argsOf call) h es d (.done out) :=
  (ticks_of_runCall hrun).invariant
    (I := fun d p => ∃ es, Within (argsOf call) h es d p)
    (fun ⟨_,hw⟩ hstep => within_step hfresh hw hstep) ⟨[],within_start h self⟩

end Within

section Course

variable {w w' : World O} {a : Action O} {es : History}

/-- What an action uses it has prepared itself, and it is new. -/
structure Fresh (w : World O) (a : Action O) (es : History) : Prop where
  prepared : ∀ s, Touches s es → s ∈ (prepared es).map Prod.fst
  new : ∀ s, Touches s es → s ∉ (Sqlite.prepared w.calls).map Prod.fst
  own : ∀ i call, a = .call i call → StepsOwn (argsOf call) es

omit [DecidableEq O] in
theorem fresh_of_untouched (h : ∀ s, ¬Touches s es) (ha : ∀ i call, a ≠ .call i call) :
    Fresh w a es :=
  ⟨fun s hs => absurd hs (h s),fun s hs => absurd hs (h s),fun i call heq => absurd heq (ha i call)⟩

theorem fresh_step (hfresh : PrepareFresh E) (act : Step E w a w')
    (made : w'.calls = es ++ w.calls) : Fresh w a es := by
  have hmade : ∀ es', w'.calls = es' ++ w.calls → es = es' := fun es' h =>
    List.append_cancel_right (made.symm.trans h)
  cases act with
  | construct i new =>
    rw [hmade [.config] rfl]
    exact fresh_of_untouched (by simp [Touches,Sqlite.prepared,Sqlite.Event.prepares,
      Sqlite.Event.stmt]) (by simp)
  | call i o c fuel out d live runs =>
    obtain ⟨es',hw⟩ := within_runCall hfresh runs
    rw [hmade es' hw.calls]
    refine ⟨hw.scope,fun s hs => hw.fresh s (hw.scope s hs),fun j call heq => ?_⟩
    cases heq
    exact hw.steps
  | moveConstruct i j o new live =>
    rw [hmade [] rfl]
    exact fresh_of_untouched (by simp [Touches,Sqlite.prepared]) (by simp)
  | moveAssignSelf i o live =>
    rw [hmade [] rfl]
    exact fresh_of_untouched (by simp [Touches,Sqlite.prepared]) (by simp)
  | moveAssign i j o source other live from_live =>
    rw [hmade [] rfl]
    exact fresh_of_untouched (by simp [Touches,Sqlite.prepared]) (by simp)
  | destroy i o live =>
    rw [hmade [_,_] rfl]
    exact fresh_of_untouched (by simp [Touches,Sqlite.prepared,Sqlite.Event.prepares,
      Sqlite.Event.stmt]) (by simp)

/-- No statement is prepared, bound to, stepped or read in two actions, and every step is of a
statement that holds nothing but arguments of the same call. -/
structure InScope (course : List (Action O × History)) : Prop where
  apart : course.Pairwise fun later earlier => ∀ s, Touches s later.2 → ¬Touches s earlier.2
  own : ∀ i call es, (.call i call,es) ∈ course → StepsOwn (argsOf call) es

end Course

theorem statements_stay_in_scope (hfresh : PrepareFresh E) (course : List (Action O × History))
    (w : World O) (h : Course E course w) : InScope course := by
  have hrun : InScope course ∧ ∀ x ∈ course, ∀ s, Touches s x.2 →
      s ∈ (prepared w.calls).map Prod.fst := by
    induction h with
    | init => exact ⟨⟨.nil,by simp⟩,by simp⟩
    | @step course w w' a es _ act made ih =>
      obtain ⟨⟨hapart,hown⟩,hall⟩ := ih
      obtain ⟨hprepared,hnew,hmine⟩ := fresh_step hfresh act made
      have hcalls : (prepared w'.calls).map Prod.fst =
          (prepared es).map Prod.fst ++ (prepared w.calls).map Prod.fst := by
        rw [made,prepared,List.filterMap_append,List.map_append]
        rfl
      refine ⟨⟨.cons (fun x hx s hs hold => hnew s hs (hall x hx s hold)) hapart,?_⟩,?_⟩
      · intro i call es' hx
        rcases List.mem_cons.mp hx with heq | hx
        · obtain ⟨rfl,rfl⟩ := Prod.mk.inj heq
          exact hmine i call rfl
        · exact hown i call es' hx
      · intro x hx s hs
        rw [hcalls]
        rcases List.mem_cons.mp hx with rfl | hx
        · exact List.mem_append_left _ (hprepared s hs)
        · exact List.mem_append_right _ (hall x hx s hs)
  exact hrun.1

theorem statements_stay_in_scope_insert : ∃ (course : List (Action Bool × History)) (es : History),
    (.call false (.executeSqlite "INSERT INTO t VALUES(?)" [.int 7]),es) ∈ course ∧ Touches 1 es ∧
      InScope course := by
  have hmade : Course sampleEngine _ _ := .step [.config] .init
    (Step.construct ⟨fun _ => none,[]⟩ false rfl) rfl
  have hopen : runCall sampleEngine 0 ⟨⟨none,none⟩,[.config]⟩ (.openSqliteDatabase "test.db") =
      some (.opened true,⟨⟨some 1,none⟩,[.openV2 "test.db" SQLITE_OK (some 1),.config]⟩) := by
    decide
  have hopened := Course.step [.openV2 "test.db" SQLITE_OK (some 1)] hmade
    (Step.call _ false ⟨none,none⟩ _ 0 _ _ rfl hopen) rfl
  have hrun : runCall sampleEngine 0 ⟨⟨some 1,none⟩,[.openV2 "test.db" SQLITE_OK (some 1),.config]⟩
      (.executeSqlite "INSERT INTO t VALUES(?)" [.int 7]) = some (.executed (executed 0),
        ⟨⟨some 1,some 1⟩,[.changes (some 1) 0,.step (some 1) SQLITE_DONE,
          .bind (some 1) 1 (.int 7) SQLITE_OK,
          .prepareV2 (some 1) "INSERT INTO t VALUES(?)" SQLITE_OK (some 1),
          .openV2 "test.db" SQLITE_OK (some 1),.config]⟩) := by
    decide
  have hinserted := Course.step [.changes (some 1) 0,.step (some 1) SQLITE_DONE,
      .bind (some 1) 1 (.int 7) SQLITE_OK,
      .prepareV2 (some 1) "INSERT INTO t VALUES(?)" SQLITE_OK (some 1)] hopened
    (Step.call _ false ⟨some 1,none⟩ _ 0 _ _ rfl hrun) rfl
  exact ⟨_,_,List.mem_cons_self,.inl (by decide),
    statements_stay_in_scope prepareFresh_sampleEngine _ _ hinserted⟩

end StatementScope
end AlephSql
