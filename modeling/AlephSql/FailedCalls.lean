import AlephSql.Failure
import AlephSql.Handles

/-! What failed calls leave behind: the effect of an `execute_sqlite` that reports a failure,
and the object after an `open_sqlite_database` that does. -/
namespace AlephSql
namespace FailedCalls

open Sqlite Database Failure CallSteps Handles Transition

section Exits

variable {E : Engine} {d : Db} {sql : String} {args : List Paramter}

theorem bindArgs_rule {P : Db → Prop} (hbind : ∀ d index value, P d → P (d.bind E index value))
    (hd : P d) (index : ℕ) : P (bindArgs E index args d) := by
  induction args generalizing index d with
  | nil => exact hd
  | cons p rest ih => exact ih (hbind d index (bound p) hd) (index+1)

def stepped (E : Engine) (d : Db) (sql : String) (args : List Paramter) : Db :=
  ((bindArgs E 1 args (d.prepareV2 E sql).2).step E).2

/-- The four exits of `execute_sqlite`. -/
theorem executeSqlite_cases (E : Engine) (d : Db) (sql : String) (args : List Paramter) :
    (d.self.sqlitePtr = none ∧ executeSqlite E d sql args = (notOpen,d)) ∨
    (d.self.sqlitePtr ≠ none ∧ prepareRet E d sql ≠ SQLITE_OK ∧
      executeSqlite E d sql args =
        (compileFailed ((d.prepareV2 E sql).2.errmsg E).1,((d.prepareV2 E sql).2.errmsg E).2)) ∨
    (d.self.sqlitePtr ≠ none ∧ prepareRet E d sql = SQLITE_OK ∧
      stepRet E d sql args = SQLITE_DONE ∧
      executeSqlite E d sql args =
        (executed ((stepped E d sql args).changes E).1,((stepped E d sql args).changes E).2)) ∨
    (d.self.sqlitePtr ≠ none ∧ prepareRet E d sql = SQLITE_OK ∧
      stepRet E d sql args ≠ SQLITE_DONE ∧
      executeSqlite E d sql args =
        (stepFailed (stepRet E d sql args) ((stepped E d sql args).errmsg E).1,
          ((stepped E d sql args).errmsg E).2)) := by
  by_cases hopen : d.self.sqlitePtr = none
  · exact .inl ⟨hopen,by simp [executeSqlite,hopen]⟩
  by_cases hprepare : (d.prepareV2 E sql).1 = SQLITE_OK
  · by_cases hdone : ((bindArgs E 1 args (d.prepareV2 E sql).2).step E).1 = SQLITE_DONE
    · refine .inr (.inr (.inl ⟨hopen,hprepare,hdone,?_⟩))
      simp [executeSqlite,hopen,hprepare,hdone,stepped]
    · refine .inr (.inr (.inr ⟨hopen,hprepare,hdone,?_⟩))
      simp [executeSqlite,hopen,hprepare,hdone,stepped,stepRet]
  · refine .inr (.inl ⟨hopen,hprepare,?_⟩)
    simp [executeSqlite,hopen,hprepare]

theorem executeSqlite_success
    (h : (executeSqlite E d sql args).1.sqlite3ExecuteStatus = true) :
    stepRet E d sql args = SQLITE_DONE ∧
      executeSqlite E d sql args =
        (executed ((stepped E d sql args).changes E).1,((stepped E d sql args).changes E).2) := by
  rcases executeSqlite_cases E d sql args with ⟨-,hx⟩ | ⟨-,-,hx⟩ | ⟨-,-,hdone,hx⟩ | ⟨-,-,-,hx⟩
  · rw [hx] at h
    cases h
  · rw [hx] at h
    cases h
  · exact ⟨hdone,hx⟩
  · rw [hx] at h
    cases h

end Exits

section Effect

def besidesStep : Event → Bool
  | .prepareV2 _ _ _ _ | .bind _ _ _ _ | .changes _ _ | .errmsg _ _ => true
  | _ => false

/-- What the database does to its contents and to the statements that are active, by the calls
made. Whether a statement stays active after an error is left to the engine. -/
structure EffectLaws {D : Type} (E : Engine) (contents : History → D)
    (active : History → StmtId → Prop) : Prop where
  besides : ∀ e h, besidesStep e = true → contents (e :: h) = contents h
  failed : ∀ h stmt ret, ret ≠ SQLITE_ROW → ret ≠ SQLITE_DONE →
    contents (.step stmt ret :: h) = contents h
  null : ∀ h, E.step h none = SQLITE_MISUSE
  prepared : ∀ h conn sql s, (E.prepareV2 h conn sql).2 = some s → ¬active h s
  quiet : ∀ e h s, besidesStep e = true → (active (e :: h) s ↔ active h s)
  others : ∀ h stmt ret s, stmt ≠ some s → (active (.step stmt ret :: h) s ↔ active h s)
  row : ∀ h s, active (.step (some s) SQLITE_ROW :: h) s
  done : ∀ h s, ¬active (.step (some s) SQLITE_DONE :: h) s

/-- A call that reports a failure has changed nothing and leaves no statement active; one that
reports success has stepped its statement to the end. -/
structure NoEffect {D : Type} (E : Engine) (contents : History → D)
    (active : History → StmtId → Prop) (d : Db) (sql : String) (args : List Paramter) : Prop where
  contents : (executeSqlite E d sql args).1.sqlite3ExecuteStatus = false →
    contents (executeSqlite E d sql args).2.calls = contents d.calls
  quiet : (executeSqlite E d sql args).1.sqlite3ExecuteStatus = false →
    ∀ s, ¬active (executeSqlite E d sql args).2.calls s
  finished : (executeSqlite E d sql args).1.sqlite3ExecuteStatus = true →
    ∃ s, (executeSqlite E d sql args).2.self.sqliteStmt = some s ∧
      lastStep s (executeSqlite E d sql args).2.calls = some SQLITE_DONE ∧
      ¬active (executeSqlite E d sql args).2.calls s

def Steps (E : Engine) (d : Db) (sql : String) : Prop :=
  d.self.sqlitePtr ≠ none ∧ prepareRet E d sql = SQLITE_OK

/-- The engine keeps the statement active after the call's step. -/
def StepKeeps (E : Engine) (active : History → StmtId → Prop) (d : Db) (sql : String)
    (args : List Paramter) : Prop :=
  ∃ s, (stepped E d sql args).self.sqliteStmt = some s ∧ active (stepped E d sql args).calls s

/-- The step, if the call comes to it, answers neither with a row nor with an error that keeps
the statement active. -/
def StepsClean (E : Engine) (active : History → StmtId → Prop) (d : Db) (sql : String)
    (args : List Paramter) : Prop :=
  Steps E d sql → stepRet E d sql args ≠ SQLITE_ROW ∧ ¬StepKeeps E active d sql args

variable {D : Type} {E : Engine} {contents : History → D} {active : History → StmtId → Prop}
  {d : Db} {sql : String} {args : List Paramter}

theorem bindArgs_self (index : ℕ) : (bindArgs E index args d).self = d.self :=
  bindArgs_rule (P := fun x => x.self = d.self) (fun _ _ _ h => h) rfl index

theorem lastStep_bindArgs (s : StmtId) (index : ℕ) :
    lastStep s (bindArgs E index args d).calls = lastStep s d.calls :=
  bindArgs_rule (P := fun x => lastStep s x.calls = lastStep s d.calls)
    (fun _ _ _ h => (latest_cons_none rfl _).trans h) rfl index

theorem contents_bindArgs (hE : EffectLaws E contents active) (index : ℕ) :
    contents (bindArgs E index args d).calls = contents d.calls :=
  bindArgs_rule (P := fun x => contents x.calls = contents d.calls)
    (fun _ _ _ h => (hE.besides _ _ rfl).trans h) rfl index

theorem active_bindArgs (hE : EffectLaws E contents active) (index : ℕ) (s : StmtId) :
    active (bindArgs E index args d).calls s ↔ active d.calls s :=
  bindArgs_rule (P := fun x => active x.calls s ↔ active d.calls s)
    (fun _ _ _ h => (hE.quiet _ _ s rfl).trans h) .rfl index

theorem stepped_self : (stepped E d sql args).self = (d.prepareV2 E sql).2.self := by
  have hself : (stepped E d sql args).self = (bindArgs E 1 args (d.prepareV2 E sql).2).self := rfl
  rw [hself,bindArgs_self]

theorem stepped_calls :
    (stepped E d sql args).calls =
      .step (stepped E d sql args).self.sqliteStmt (stepRet E d sql args) ::
        (bindArgs E 1 args (d.prepareV2 E sql).2).calls := rfl

theorem lastStep_stepped (s : StmtId) :
    lastStep s (stepped E d sql args).calls =
      if (stepped E d sql args).self.sqliteStmt = some s then some (stepRet E d sql args)
      else lastStep s (d.prepareV2 E sql).2.calls := by
  rw [stepped_calls,lastStep,latest_cons,Event.steps]
  split_ifs
  · rfl
  · exact lastStep_bindArgs s 1

theorem stepped_stmt (hnull : ∀ h, E.step h none = SQLITE_MISUSE)
    (h : stepRet E d sql args ≠ SQLITE_MISUSE) :
    ∃ s, (stepped E d sql args).self.sqliteStmt = some s := by
  apply Option.ne_none_iff_exists'.mp
  intro hnone
  apply h
  have hmisuse := hnull (bindArgs E 1 args (d.prepareV2 E sql).2).calls
  rwa [← hnone] at hmisuse

theorem stepped_of_done (hnull : ∀ h, E.step h none = SQLITE_MISUSE)
    (hdone : stepRet E d sql args = SQLITE_DONE) :
    ∃ s, (stepped E d sql args).self.sqliteStmt = some s := by
  apply stepped_stmt hnull
  rw [hdone]
  decide

theorem contents_stepped (hE : EffectLaws E contents active)
    (hrow : stepRet E d sql args ≠ SQLITE_ROW) (hdone : stepRet E d sql args ≠ SQLITE_DONE) :
    contents (stepped E d sql args).calls = contents d.calls := by
  rw [stepped_calls,hE.failed _ _ _ hrow hdone,contents_bindArgs hE]
  exact hE.besides _ _ rfl

theorem active_stepped_other (hE : EffectLaws E contents active) {s : StmtId}
    (hs : (stepped E d sql args).self.sqliteStmt ≠ some s) :
    active (stepped E d sql args).calls s ↔ active d.calls s := by
  rw [stepped_calls,hE.others _ _ _ s hs,active_bindArgs hE]
  exact hE.quiet _ _ s rfl

theorem not_active_of_stmt (hE : EffectLaws E contents active) {s : StmtId}
    (hs : (stepped E d sql args).self.sqliteStmt = some s) : ¬active d.calls s := by
  rw [stepped_self] at hs
  exact hE.prepared _ _ _ s hs

theorem finished_of_done (hE : EffectLaws E contents active)
    (hdone : stepRet E d sql args = SQLITE_DONE) :
    ∃ s, (stepped E d sql args).self.sqliteStmt = some s ∧
      lastStep s (stepped E d sql args).calls = some SQLITE_DONE ∧
      ¬active (stepped E d sql args).calls s := by
  obtain ⟨s,hs⟩ := stepped_of_done hE.null hdone
  refine ⟨s,hs,by rw [lastStep_stepped,if_pos hs,hdone],?_⟩
  rw [stepped_calls,hs,hdone]
  exact hE.done _ s

theorem keeps_of_row (hE : EffectLaws E contents active)
    (hrow : stepRet E d sql args = SQLITE_ROW) : StepKeeps E active d sql args := by
  have hstepped : stepRet E d sql args ≠ SQLITE_MISUSE := by
    rw [hrow]
    decide
  obtain ⟨s,hs⟩ := stepped_stmt hE.null hstepped
  refine ⟨s,hs,?_⟩
  rw [stepped_calls,hs,hrow]
  exact hE.row _ s

/-- After the step no statement is active if none was before and the step kept none. -/
theorem quiet_stepped_iff (hE : EffectLaws E contents active) :
    (∀ s, ¬active (stepped E d sql args).calls s) ↔
      (∀ s, ¬active d.calls s) ∧ ¬StepKeeps E active d sql args := by
  constructor
  · refine fun h => ⟨fun s => ?_,fun ⟨s,_,hactive⟩ => h s hactive⟩
    by_cases hs : (stepped E d sql args).self.sqliteStmt = some s
    · exact not_active_of_stmt hE hs
    · rw [← active_stepped_other hE hs]
      exact h s
  · intro ⟨hquiet,hkeeps⟩ s hactive
    by_cases hs : (stepped E d sql args).self.sqliteStmt = some s
    · exact hkeeps ⟨s,hs,hactive⟩
    · exact hquiet s ((active_stepped_other hE hs).mp hactive)

section Assembly

variable {d' : Db} {r : ExecuteResult}

theorem noEffect_of_failed_iff (hx : executeSqlite E d sql args = (r,d'))
    (hstatus : r.sqlite3ExecuteStatus = false) (hcontents : contents d'.calls = contents d.calls) :
    NoEffect E contents active d sql args ↔ ∀ s, ¬active d'.calls s := by
  constructor
  · intro h s
    have hquiet := h.quiet (by rw [hx,hstatus]) s
    rwa [hx] at hquiet
  · intro hquiet
    refine ⟨fun _ => by rw [hx,hcontents],fun _ s => by rw [hx]; exact hquiet s,fun h => ?_⟩
    rw [hx,hstatus] at h
    cases h

theorem NoEffect.of_success (hx : executeSqlite E d sql args = (r,d'))
    (hstatus : r.sqlite3ExecuteStatus = true)
    (hfinished : ∃ s, d'.self.sqliteStmt = some s ∧ lastStep s d'.calls = some SQLITE_DONE ∧
      ¬active d'.calls s) : NoEffect E contents active d sql args := by
  have hnot : ¬(executeSqlite E d sql args).1.sqlite3ExecuteStatus = false := by
    rw [hx,hstatus]
    decide
  exact ⟨fun h => absurd h hnot,fun h => absurd h hnot,fun _ => by rwa [hx]⟩

theorem noEffect_of_failed_step (hE : EffectLaws E contents active)
    (hdone : stepRet E d sql args ≠ SQLITE_DONE)
    (hx : executeSqlite E d sql args =
      (stepFailed (stepRet E d sql args) ((stepped E d sql args).errmsg E).1,
        ((stepped E d sql args).errmsg E).2)) :
    NoEffect E contents active d sql args ↔ (∀ s, ¬active d.calls s) ∧
      stepRet E d sql args ≠ SQLITE_ROW ∧ ¬StepKeeps E active d sql args := by
  have hsame : ∀ s, active ((stepped E d sql args).errmsg E).2.calls s ↔
      active (stepped E d sql args).calls s := fun s => hE.quiet _ _ s rfl
  by_cases hrow : stepRet E d sql args = SQLITE_ROW
  · refine iff_of_false (fun h => ?_) fun h => h.2.1 hrow
    obtain ⟨s,-,hactive⟩ := keeps_of_row hE hrow
    have hquiet := h.quiet (by rw [hx]; rfl) s
    rw [hx,hsame] at hquiet
    exact hquiet hactive
  · have hcontents : contents ((stepped E d sql args).errmsg E).2.calls = contents d.calls :=
      (hE.besides _ _ rfl).trans (contents_stepped hE hrow hdone)
    rw [noEffect_of_failed_iff hx rfl hcontents]
    simp only [hsame,quiet_stepped_iff hE,ne_eq,hrow,not_false_iff,true_and]

end Assembly

end Effect

/-- A failed `execute_sqlite` has no effect, and a successful one has run to completion, exactly
when its step answers that it is done, or no statement was active before and the step keeps
none. -/
theorem failed_execute_no_effect_iff {D : Type} (E : Engine) (contents : History → D)
    (active : History → StmtId → Prop) (hE : EffectLaws E contents active) (d : Db) (sql : String)
    (args : List Paramter) :
    NoEffect E contents active d sql args ↔
      Steps E d sql ∧ stepRet E d sql args = SQLITE_DONE ∨
        (∀ s, ¬active d.calls s) ∧ StepsClean E active d sql args := by
  rcases executeSqlite_cases E d sql args with ⟨hopen,hx⟩ | ⟨hopen,hprepare,hx⟩ |
    ⟨hopen,hprepare,hdone,hx⟩ | ⟨hopen,hprepare,hdone,hx⟩
  · have hsteps : ¬Steps E d sql := fun h => h.1 hopen
    rw [noEffect_of_failed_iff hx rfl rfl]
    simp [StepsClean,hsteps]
  · have hsteps : ¬Steps E d sql := fun h => hprepare h.2
    rw [noEffect_of_failed_iff hx rfl ((hE.besides _ _ rfl).trans (hE.besides _ _ rfl))]
    have hsame : ∀ s, active ((d.prepareV2 E sql).2.errmsg E).2.calls s ↔ active d.calls s :=
      fun s => (hE.quiet _ _ s rfl).trans (hE.quiet _ _ s rfl)
    simp [StepsClean,hsteps,hsame]
  · obtain ⟨s,hs,hlast,hquiet⟩ := finished_of_done hE hdone
    refine iff_of_true (.of_success hx rfl ⟨s,hs,(latest_cons_none rfl _).trans hlast,?_⟩)
      (.inl ⟨⟨hopen,hprepare⟩,hdone⟩)
    exact fun hactive => hquiet ((hE.quiet _ _ s rfl).mp hactive)
  · have hsteps : Steps E d sql := ⟨hopen,hprepare⟩
    rw [noEffect_of_failed_step hE hdone hx]
    simp [StepsClean,hsteps,hdone]

section Samples

/-- The steps that have answered with a row or to the end, each taken to insert a row. -/
def inserts : Event → Bool
  | .step _ ret => ret == SQLITE_ROW || ret == SQLITE_DONE
  | _ => false

def inserted (h : History) : ℕ := h.countP inserts

def steppedStmt : Event → Option StmtId
  | .step stmt _ => stmt
  | _ => none

def answering (ret : ℤ) : Engine :=
  { sampleEngine with
    prepareV2 := fun h _ _ => (SQLITE_OK,some (beyond (h.filterMap steppedStmt)))
    step := fun _ stmt => if stmt = none then SQLITE_MISUSE else ret }

def Event.answer (s : StmtId) : Event → Option ℤ
  | .step stmt ret => if stmt = some s then some ret else none
  | _ => none

/-- A statement that waits for a lock stays active, as one that stands on a row does; every other
error ends it. -/
def running (h : History) (s : StmtId) : Prop :=
  ∃ ret ∈ h.findSome? (Event.answer s), ret = SQLITE_ROW ∨ ret = SQLITE_BUSY

theorem mem_of_running {s : StmtId} {h : History} (hs : running h s) :
    s ∈ h.filterMap steppedStmt := by
  obtain ⟨ret,hret,-⟩ := hs
  obtain ⟨e,he,hanswer⟩ := List.exists_of_findSome?_eq_some hret
  cases e with
  | step stmt ret' =>
    have hstmt : stmt = some s := by
      by_contra hne
      simp [Event.answer,hne] at hanswer
    exact List.mem_filterMap.mpr ⟨_,he,hstmt⟩
  | _ => cases hanswer

theorem effectLaws_answering (ret : ℤ) : EffectLaws (answering ret) inserted running := by
  constructor
  · intro e h he
    cases e <;> simp_all [besidesStep,inserted,inserts]
  · intro h stmt ret hrow hdone
    simp [inserted,inserts,hrow,hdone]
  · intro h
    rfl
  · intro h conn sql s hs hrunning
    cases hs
    exact beyond_not_mem _ (mem_of_running hrunning)
  · intro e h s he
    have hanswer : Event.answer s e = none := by
      cases e with
      | step => cases he
      | _ => rfl
    rw [running,List.findSome?_cons,hanswer]
    rfl
  · intro h stmt ret s hs
    have hanswer : Event.answer s (.step stmt ret) = none := if_neg hs
    rw [running,List.findSome?_cons,hanswer]
    rfl
  · intro h s
    exact ⟨SQLITE_ROW,by simp [Event.answer],.inl rfl⟩
  · rintro h s ⟨ret,hret,hkept⟩
    have hdone : ret = SQLITE_DONE := by simpa [Event.answer] using hret.symm
    rw [hdone] at hkept
    revert hkept
    decide

theorem failed_execute_no_effect_iff_refused :
    NoEffect (answering SQLITE_CONSTRAINT) inserted running openedObject
      "INSERT INTO test (id) VALUES (1)" [] ∧
    ¬NoEffect (answering SQLITE_BUSY) inserted running openedObject
      "INSERT INTO test (id) VALUES (1)" [] := by
  have hquiet : ∀ s, ¬running openedObject.calls s := fun s ⟨ret,hret,_⟩ => by cases hret
  constructor
  · refine (failed_execute_no_effect_iff _ inserted running (effectLaws_answering _) _ _ _).mpr
      (.inr ⟨hquiet,fun _ => ⟨by decide,?_⟩⟩)
    rintro ⟨s,hs,ret,hret,hkept⟩
    cases hs
    cases hret
    revert hkept
    decide
  · intro h
    rcases (failed_execute_no_effect_iff _ inserted running (effectLaws_answering _) _ _ _).mp h
      with ⟨-,hdone⟩ | ⟨-,hclean⟩
    · exact absurd hdone (by decide)
    · exact (hclean ⟨by decide,rfl⟩).2 ⟨1,rfl,SQLITE_BUSY,rfl,.inr rfl⟩

/-- An insertion that returns its row: it has happened, the call reports a failure, and the
statement is left active. -/
theorem returning_reported_failed :
    (executeSqlite (answering SQLITE_ROW) openedObject
      "INSERT INTO test (age) VALUES (16) RETURNING id" []).1.sqlite3ExecuteStatus = false ∧
    inserted (executeSqlite (answering SQLITE_ROW) openedObject
      "INSERT INTO test (age) VALUES (16) RETURNING id" []).2.calls =
        inserted openedObject.calls + 1 ∧
    running (executeSqlite (answering SQLITE_ROW) openedObject
      "INSERT INTO test (age) VALUES (16) RETURNING id" []).2.calls 1 ∧
    ¬NoEffect (answering SQLITE_ROW) inserted running openedObject
      "INSERT INTO test (age) VALUES (16) RETURNING id" [] := by
  refine ⟨rfl,rfl,⟨SQLITE_ROW,rfl,.inl rfl⟩,fun h => ?_⟩
  exact absurd (h.contents rfl) (by decide)

end Samples

section Open

variable {O : Type} [DecidableEq O] {E : Engine} {d : Db} {w : World O}

/-- An open stores a connection also when it fails. -/
def OpenStores (E : Engine) : Prop := ∀ h name, (E.openV2 h name).2 ≠ none

def openRet (E : Engine) (d : Db) (name : String) : ℤ := (d.openV2 E name).1

/-- A failed open leaves the members as they were, so that a never-opened object still refuses
every execution, without a call of the engine. -/
structure OpenHarmless (E : Engine) (d : Db) (name : String) : Prop where
  members : (openSqliteDatabase E d name).1 = false →
    (openSqliteDatabase E d name).2.self = d.self
  notOpen : (openSqliteDatabase E d name).1 = false → d.self.sqlitePtr = none →
    ∀ sql args,
      executeSqlite E (openSqliteDatabase E d name).2 sql args =
        (notOpen,(openSqliteDatabase E d name).2) ∧
      ∀ fuel, executeSqliteSelect E fuel (openSqliteDatabase E d name).2 sql args =
        some (notOpen,(openSqliteDatabase E d name).2)

/-- The connections that objects hold are ones that an open has stored. -/
def HeldOpened (w : World O) : Prop := ∀ i c, w.ptr i = some c → c ∈ opened w.calls

theorem opened_mono (es : History) {h : History} {c : ConnId} (hc : c ∈ opened h) :
    c ∈ opened (es ++ h) := by
  rw [opened,List.filterMap_append]
  exact List.mem_append_right _ hc

theorem heldOpened_tick {i : O} {call : Call} {d' : Db} {p p' : CallPc}
    (hw : HeldOpened (w.put i d)) (h : callStep E call d p = some (d',p')) :
    HeldOpened (w.put i d') := by
  obtain ⟨es,hcalls⟩ := callStep_calls h
  have hothers : ∀ j c, j ≠ i → w.ptr j = some c → c ∈ opened d'.calls := by
    intro j c hj hc
    rw [hcalls]
    exact opened_mono es (hw j c (by simp [hj,hc]))
  have hself : ∀ c, d'.self.sqlitePtr = some c → c ∈ opened d'.calls := by
    intro c hc
    have hkept : d'.self.sqlitePtr = d.self.sqlitePtr → c ∈ opened d'.calls := by
      intro hsame
      rw [hcalls]
      exact opened_mono es (hw i c (by simp [← hsame,hc]))
    rcases callStep_effect h with ⟨rfl,-⟩ | ⟨name,-,-,-,rfl,-⟩ | ⟨sql,args,-,-,rfl,-⟩ |
      ⟨e,-,rfl,-⟩ | ⟨e,-,rfl,-⟩
    · exact hkept rfl
    · have hout : (E.openV2 d.calls (cString name)).2 = some c := hc
      simp [opened,Db.openV2,Event.opens,hout]
    · exact hkept rfl
    · exact hkept rfl
    · exact hkept rfl
  intro j c hj
  by_cases hji : j = i
  · subst hji
    exact hself c (by simpa using hj)
  · exact hothers j c hji (by simpa [hji] using hj)

theorem heldOpened_step {a : Action O} {w' : World O} (hw : HeldOpened w) (h : Step E w a w') :
    HeldOpened w' := by
  have hdrop : ∀ (i : O) (es : History) (w' : World O),
      w'.ptr = Function.update w.ptr i none → w'.calls = es ++ w.calls → HeldOpened w' := by
    intro i es w' hptr hcalls j c hj
    rw [hptr] at hj
    rw [hcalls]
    by_cases hji : j = i
    · simp [hji] at hj
    · exact opened_mono es (hw j c (by simpa [hji] using hj))
  cases h with
  | construct i new => exact hdrop i [.config] _ (by simp [construct]) rfl
  | call i o c fuel out d live runs =>
    exact (ticks_of_runCall runs).invariant (I := fun d _ => HeldOpened (w.put i d))
      (fun hd hstep => heldOpened_tick hd hstep) ((put_live live).symm ▸ hw)
  | moveConstruct i j o new live =>
    have hptr : w.ptr j = o.sqlitePtr := by simp [World.ptr,live]
    intro k c hk
    by_cases hki : k = i
    · subst hki
      exact hw j c (by rw [hptr]; simpa [moveConstruct] using hk)
    · exact hw k c (by simpa [hki] using hk)
  | moveAssignSelf i o live => exact hw
  | moveAssign i j o source other live from_live =>
    have hptr : w.ptr j = source.sqlitePtr := by simp [World.ptr,from_live]
    intro k c hk
    by_cases hkj : k = j
    · simp [hkj,moveAssign] at hk
    · by_cases hki : k = i
      · subst hki
        exact hw j c (by rw [hptr]; simpa [hkj,moveAssign] using hk)
      · exact hw k c (by simpa [hkj,hki] using hk)
  | destroy i o live =>
    exact hdrop i [.close o.sqlitePtr (E.close (.finalize o.sqliteStmt :: w.calls) o.sqlitePtr),
      .finalize o.sqliteStmt] _ (by simp) rfl

theorem heldOpened_reach (hw : Reachable (world E O) w) : HeldOpened w := by
  refine hw.invariant (I := HeldOpened) ?_ fun _ hi _ h => heldOpened_step hi h
  rintro w rfl i c hi
  cases hi

/-- The connection that an open stores is not the one that is held. -/
theorem openHarmless_iff (hfresh : OpenFresh E) (hstores : OpenStores E)
    (hheld : ∀ c, d.self.sqlitePtr = some c → c ∈ opened d.calls) (name : String) :
    OpenHarmless E d name ↔ name = "" ∨ openRet E d name = SQLITE_OK := by
  by_cases hname : name = ""
  · refine iff_of_true ⟨fun _ => ?_,fun _ hnone sql args => ?_⟩ (.inl hname)
    · simp [openSqliteDatabase,hname]
    · simp [openSqliteDatabase,hname,executeSqlite,executeSqliteSelect,hnone]
  by_cases hret : (d.openV2 E name).1 = SQLITE_OK
  · have hsuccess : (openSqliteDatabase E d name).1 = true := by
      simp [openSqliteDatabase,hname,hret]
    refine iff_of_true ⟨fun h => ?_,fun h => ?_⟩ (.inr hret) <;>
      · rw [hsuccess] at h
        cases h
  · have hfailed : openSqliteDatabase E d name = (false,((d.openV2 E name).2.errmsg E).2) := by
      simp [openSqliteDatabase,hname,hret]
    refine iff_of_false (fun h => ?_) (by simp [hname,openRet,hret])
    have hmembers := h.members (by rw [hfailed])
    rw [hfailed] at hmembers
    have hptr : (E.openV2 d.calls (cString name)).2 = d.self.sqlitePtr :=
      congrArg Object.sqlitePtr hmembers
    obtain ⟨c,hc⟩ := Option.ne_none_iff_exists'.mp (hstores d.calls (cString name))
    exact hfresh _ _ c hc (hheld c (by rw [← hptr,hc]))

end Open

/-- In every program, an `open_sqlite_database` on a live object leaves the object as it was
when it fails, if and only if it fails for its empty name alone. -/
theorem failed_open_harmless_iff {O : Type} [DecidableEq O] (E : Engine) (hfresh : OpenFresh E)
    (hstores : OpenStores E) (w : World O) (hw : Reachable (world E O) w) (i : O) (o : Object)
    (live : w.objects i = some o) (name : String) :
    OpenHarmless E ⟨o,w.calls⟩ name ↔ name = "" ∨ openRet E ⟨o,w.calls⟩ name = SQLITE_OK := by
  apply openHarmless_iff hfresh hstores
  intro c hc
  exact heldOpened_reach hw i c (by simpa [World.ptr,live] using hc)

theorem failed_open_harmless_iff_opened :
    OpenHarmless sampleEngine ⟨⟨some 1,none⟩,oneOpened.calls⟩ "other.db" := by
  have hstores : OpenStores sampleEngine := fun _ _ => by simp [sampleEngine]
  exact (failed_open_harmless_iff sampleEngine openFresh_sampleEngine hstores oneOpened
    (oneOpened_reach (fun _ _ => trivial) fun _ _ _ => trivial) false ⟨some 1,none⟩ rfl
    "other.db").mpr (.inr rfl)

def failingOpen : Engine :=
  { sampleEngine with
    openV2 := fun h name =>
      (if name = "test.db" then SQLITE_OK else SQLITE_CANTOPEN,some (beyond (opened h))) }

/-- After a failed open a never-opened object runs statements on the unusable connection, and
an opened one has lost the connection it had. -/
theorem failed_open_replaces_connection :
    ((openSqliteDatabase failingOpen (construct []) "missing/test.db").1 = false ∧
      (executeSqlite failingOpen
        (openSqliteDatabase failingOpen (construct []) "missing/test.db").2
        "DELETE FROM test" []).1 ≠ notOpen ∧
      ¬OpenHarmless failingOpen (construct []) "missing/test.db") ∧
    ((openSqliteDatabase failingOpen openedObject "missing/test.db").1 = false ∧
      openedObject.self.sqlitePtr = some 1 ∧
      (openSqliteDatabase failingOpen openedObject "missing/test.db").2.self.sqlitePtr = some 2 ∧
      ¬OpenHarmless failingOpen openedObject "missing/test.db") := by
  refine ⟨⟨by decide,by decide,fun h => ?_⟩,by decide,rfl,by decide,fun h => ?_⟩
  · exact absurd (h.members (by decide)) (by decide)
  · exact absurd (h.members (by decide)) (by decide)

end FailedCalls
end AlephSql
