import AlephSql.Database

/-! The operations one API call at a time, as workers of a pool interleave them. The members
`M_sqlite_ptr` and `M_sqlite_stmt` are read anew at every call. -/
namespace AlephSql
namespace CallSteps

open Sqlite Database

/-- Where an operation stands: the API call it makes next and the local variables it keeps. -/
inductive CallPc
  | start
  | openErrmsg
  | prepare
  | compileErrmsg (ret : ℤ)
  | bind (index : ℕ) (rest : List Paramter)
  | executeStep
  | changes
  | stepErrmsg (ret : ℤ)
  | columnCount
  | selectStep (count : ℕ) (rows : List (List String))
  | columnText (count : ℕ) (rows : List (List String)) (remaining index : ℕ) (row : List String)
  | done (outcome : Outcome)
  deriving DecidableEq, Repr

/-- The next action of an operation; none when it has returned. -/
def callStep (E : Engine) (call : Call) (d : Db) : CallPc → Option (Db × CallPc)
  | .start => match call with
    | .openSqliteDatabase name =>
      if name = "" then some (d,.done (.opened false))
      else
        let opened := d.openV2 E name
        if opened.1 ≠ SQLITE_OK then some (opened.2,.openErrmsg)
        else some (opened.2,.done (.opened true))
    | .executeSqlite _ _ | .executeSqliteSelect _ _ =>
      if d.self.sqlitePtr = none then some (d,.done (.executed notOpen)) else some (d,.prepare)
  | .openErrmsg => some ((d.errmsg E).2,.done (.opened false))
  | .prepare => match call with
    | .openSqliteDatabase _ => none
    | .executeSqlite sql args | .executeSqliteSelect sql args =>
      let compiled := d.prepareV2 E sql
      if compiled.1 ≠ SQLITE_OK then some (compiled.2,.compileErrmsg compiled.1)
      else some (compiled.2,.bind 1 args)
  | .compileErrmsg ret =>
    let message := d.errmsg E
    match call with
    | .openSqliteDatabase _ => none
    | .executeSqlite _ _ => some (message.2,.done (.executed (compileFailed message.1)))
    | .executeSqliteSelect _ _ =>
      some (message.2,.done (.executed (selectCompileFailed ret message.1)))
  | .bind index (p :: rest) => some (d.bind E index (bound p),.bind (index+1) rest)
  | .bind _ [] => match call with
    | .openSqliteDatabase _ => none
    | .executeSqlite _ _ => some (d,.executeStep)
    | .executeSqliteSelect _ _ => some (d,.columnCount)
  | .executeStep =>
    let stepped := d.step E
    if stepped.1 = SQLITE_DONE then some (stepped.2,.changes)
    else some (stepped.2,.stepErrmsg stepped.1)
  | .changes =>
    let changed := d.changes E
    some (changed.2,.done (.executed (executed changed.1)))
  | .stepErrmsg ret =>
    let message := d.errmsg E
    some (message.2,.done (.executed (stepFailed ret message.1)))
  | .columnCount =>
    let counted := d.columnCount E
    some (counted.2,.selectStep counted.1 [])
  | .selectStep count rows =>
    let stepped := d.step E
    if stepped.1 = SQLITE_ROW then some (stepped.2,.columnText count rows count 0 [])
    else some (stepped.2,.done (.executed (selected rows)))
  | .columnText count rows (k+1) index row =>
    let text := d.columnText E index
    some (text.2,.columnText count rows k (index+1) (row ++ [cell text.1]))
  | .columnText count rows 0 _ row => some (d,.selectStep count (rows ++ [row]))
  | .done _ => none

/-- One action while nobody else acts. -/
def Tick (E : Engine) (call : Call) (a b : Db × CallPc) : Prop := callStep E call a.1 a.2 = some b

abbrev Ticks (E : Engine) (call : Call) : Db × CallPc → Db × CallPc → Prop :=
  Relation.ReflTransGen (Tick E call)

theorem Ticks.invariant {E : Engine} {call : Call} {I : Db → CallPc → Prop}
    (hstep : ∀ {d p d' p'}, I d p → callStep E call d p = some (d',p') → I d' p')
    {d d' : Db} {p p' : CallPc} (h : Ticks E call (d,p) (d',p')) (hi : I d p) : I d' p' := by
  generalize hb : (d',p') = b at h
  induction h generalizing d' p' with
  | refl =>
    cases hb
    exact hi
  | tail _ htick ih =>
    subst hb
    exact hstep (ih rfl) htick

section Resume

def finishExecute (E : Engine) (d : Db) : ExecuteResult × Db :=
  let stepped := d.step E
  if stepped.1 = SQLITE_DONE then
    let changed := stepped.2.changes E
    (executed changed.1,changed.2)
  else
    let message := stepped.2.errmsg E
    (stepFailed stepped.1 message.1,message.2)

def finishRows (E : Engine) (count fuel : ℕ) (rows : List (List String)) (d : Db) :
    Option (Outcome × Db) :=
  (fetchRows E count fuel rows d).map fun fetched => (.executed (selected fetched.1),fetched.2)

def finishSelect (E : Engine) (fuel : ℕ) (d : Db) : Option (Outcome × Db) :=
  let counted := d.columnCount E
  finishRows E counted.1 fuel [] counted.2

def resume (E : Engine) (call : Call) (fuel : ℕ) (d : Db) : CallPc → Option (Outcome × Db)
  | .start => runCall E fuel d call
  | .openErrmsg => some (.opened false,(d.errmsg E).2)
  | .prepare => match call with
    | .openSqliteDatabase _ => none
    | .executeSqlite sql args =>
      let compiled := d.prepareV2 E sql
      if compiled.1 ≠ SQLITE_OK then
        let message := compiled.2.errmsg E
        some (.executed (compileFailed message.1),message.2)
      else some ((finishExecute E (bindArgs E 1 args compiled.2)).map .executed id)
    | .executeSqliteSelect sql args =>
      let compiled := d.prepareV2 E sql
      if compiled.1 ≠ SQLITE_OK then
        let message := compiled.2.errmsg E
        some (.executed (selectCompileFailed compiled.1 message.1),message.2)
      else finishSelect E fuel (bindArgs E 1 args compiled.2)
  | .compileErrmsg ret =>
    let message := d.errmsg E
    match call with
    | .openSqliteDatabase _ => none
    | .executeSqlite _ _ => some (.executed (compileFailed message.1),message.2)
    | .executeSqliteSelect _ _ => some (.executed (selectCompileFailed ret message.1),message.2)
  | .bind index rest => match call with
    | .openSqliteDatabase _ => none
    | .executeSqlite _ _ => some ((finishExecute E (bindArgs E index rest d)).map .executed id)
    | .executeSqliteSelect _ _ => finishSelect E fuel (bindArgs E index rest d)
  | .executeStep => some ((finishExecute E d).map .executed id)
  | .changes => some (.executed (executed (d.changes E).1),(d.changes E).2)
  | .stepErrmsg ret => some (.executed (stepFailed ret (d.errmsg E).1),(d.errmsg E).2)
  | .columnCount => finishSelect E fuel d
  | .selectStep count rows => finishRows E count fuel rows d
  | .columnText count rows remaining index row =>
    let fetched := fetchRow E remaining index row d
    finishRows E count fuel (rows ++ [fetched.1]) fetched.2
  | .done outcome => some (outcome,d)

variable {E : Engine} {call : Call} {d d' : Db} {p p' : CallPc}

theorem resume_prepare (hopen : d.self.sqlitePtr ≠ none) (fuel : ℕ)
    (hcall : ∀ name, call ≠ .openSqliteDatabase name) :
    resume E call fuel d .prepare = runCall E fuel d call := by
  cases call with
  | openSqliteDatabase name => exact absurd rfl (hcall name)
  | executeSqlite sql args =>
    by_cases hc : (d.prepareV2 E sql).1 = SQLITE_OK
    · simp [resume,runCall,executeSqlite,finishExecute,hopen,hc]
    · simp [resume,runCall,executeSqlite,hopen,hc]
  | executeSqliteSelect sql args =>
    by_cases hc : (d.prepareV2 E sql).1 = SQLITE_OK
    · simp only [resume,runCall,executeSqliteSelect,finishSelect,finishRows,hopen,hc,ne_eq,
        not_true,if_false,Option.map_map]
      rfl
    · simp [resume,runCall,executeSqliteSelect,hopen,hc]

/-- An action leaves the rest of the function with the same answer; only a step that yields a
row uses up fuel. -/
theorem resume_step (h : callStep E call d p = some (d',p')) {fuel : ℕ} {x : Outcome × Db}
    (hx : resume E call fuel d' p' = some x) : ∃ fuel', resume E call fuel' d p = some x := by
  cases p with
  | selectStep count rows =>
    simp only [callStep] at h
    by_cases hrow : (d.step E).1 = SQLITE_ROW
    · simp only [hrow,if_true,Option.some.injEq,Prod.mk.injEq] at h
      obtain ⟨rfl,rfl⟩ := h
      exact ⟨fuel+1,by simpa [resume,finishRows,fetchRows,hrow] using hx⟩
    · simp only [hrow,if_false,Option.some.injEq,Prod.mk.injEq] at h
      obtain ⟨rfl,rfl⟩ := h
      exact ⟨1,by simpa [resume,finishRows,fetchRows,hrow] using hx⟩
  | columnText count rows remaining index row =>
    cases remaining <;> cases h <;> exact ⟨fuel,hx⟩
  | bind index rest =>
    cases rest with
    | nil => cases call <;> cases h <;> exact ⟨fuel,hx⟩
    | cons p rest =>
      cases h
      cases call <;> exact ⟨fuel,hx⟩
  | start =>
    refine ⟨fuel,?_⟩
    cases call with
    | openSqliteDatabase name =>
      simp only [callStep] at h
      split at h
      · next hname => cases h; simpa [resume,runCall,openSqliteDatabase,hname] using hx
      · next hname =>
        split at h <;> cases h <;> simp_all [resume,runCall,openSqliteDatabase]
    | executeSqlite sql args | executeSqliteSelect sql args =>
      by_cases hopen : d.self.sqlitePtr = none
      · simp only [callStep,hopen,if_true,Option.some.injEq,Prod.mk.injEq] at h
        obtain ⟨rfl,rfl⟩ := h
        simpa [resume,runCall,executeSqlite,executeSqliteSelect,hopen] using hx
      · simp only [callStep,hopen,if_false,Option.some.injEq,Prod.mk.injEq] at h
        obtain ⟨rfl,rfl⟩ := h
        rwa [resume_prepare hopen fuel (by simp)] at hx
  | prepare =>
    refine ⟨fuel,?_⟩
    cases call with
    | openSqliteDatabase name => cases h
    | executeSqlite sql args | executeSqliteSelect sql args =>
      simp only [callStep] at h
      split at h <;> cases h <;> simp_all [resume]
  | compileErrmsg ret => cases call <;> cases h <;> exact ⟨fuel,hx⟩
  | executeStep =>
    refine ⟨fuel,?_⟩
    simp only [callStep] at h
    split at h <;> cases h <;> simp_all [resume,finishExecute]
  | openErrmsg | changes | stepErrmsg | columnCount => cases h; exact ⟨fuel,hx⟩
  | done outcome => cases h

theorem resume_of_ticks {o : Outcome} (h : Ticks E call (d,p) (d',.done o)) :
    ∃ fuel, resume E call fuel d p = some (o,d') := by
  generalize ha : (d,p) = a at h
  induction h using Relation.ReflTransGen.head_induction_on generalizing d p with
  | refl =>
    cases ha
    exact ⟨0,rfl⟩
  | @head a b hstep _ ih =>
    subst ha
    obtain ⟨fuel,hx⟩ := ih rfl
    exact resume_step hstep hx

end Resume

section Run

variable {E : Engine} {call : Call} {d d' : Db}

theorem ticks_bind (index : ℕ) (rest : List Paramter) :
    Ticks E call (d,.bind index rest) (bindArgs E index rest d,.bind (index+rest.length) []) := by
  induction rest generalizing d index with
  | nil => exact .refl
  | cons p rest ih =>
    have hrest := ih (d := d.bind E index (bound p)) (index+1)
    rw [List.length_cons,← Nat.add_assoc,Nat.add_right_comm]
    exact .head rfl hrest

theorem ticks_columnText (count : ℕ) (rows : List (List String)) (remaining index : ℕ)
    (row : List String) :
    Ticks E call (d,.columnText count rows remaining index row)
      ((fetchRow E remaining index row d).2,
        .selectStep count (rows ++ [(fetchRow E remaining index row d).1])) := by
  induction remaining generalizing d index row with
  | zero => exact .single rfl
  | succ k ih => exact .head rfl (ih _ _)

theorem ticks_selectStep {count fuel : ℕ} {rows : List (List String)} {o : Outcome}
    (h : finishRows E count fuel rows d = some (o,d')) :
    Ticks E call (d,.selectStep count rows) (d',.done o) := by
  induction fuel generalizing d rows with
  | zero => simp [finishRows,fetchRows] at h
  | succ fuel ih =>
    by_cases hrow : (d.step E).1 = SQLITE_ROW
    · have hnext : finishRows E count fuel
          (rows ++ [(fetchRow E count 0 [] (d.step E).2).1]) (fetchRow E count 0 [] (d.step E).2).2
            = some (o,d') := by
        simpa [finishRows,fetchRows,hrow] using h
      have hstep : Tick E call (d,.selectStep count rows)
          ((d.step E).2,.columnText count rows count 0 []) := by simp [Tick,callStep,hrow]
      exact .head hstep ((ticks_columnText _ _ _ _ _).trans (ih hnext))
    · simp only [finishRows,fetchRows,hrow,if_false,Option.map_some,Option.some.injEq,
        Prod.mk.injEq] at h
      obtain ⟨rfl,rfl⟩ := h
      exact .single (by simp [Tick,callStep,hrow])

theorem ticks_executeStep :
    Ticks E call (d,.executeStep)
      ((finishExecute E d).2,.done (.executed (finishExecute E d).1)) := by
  by_cases hdone : (d.step E).1 = SQLITE_DONE
  · have hstep : Tick E call (d,.executeStep) ((d.step E).2,.changes) := by
      simp [Tick,callStep,hdone]
    simp only [finishExecute,hdone,if_true]
    exact .head hstep (.single rfl)
  · have hstep : Tick E call (d,.executeStep) ((d.step E).2,.stepErrmsg (d.step E).1) := by
      simp [Tick,callStep,hdone]
    simp only [finishExecute,hdone,if_false]
    exact .head hstep (.single rfl)

theorem ticks_prepare {fuel : ℕ} {o : Outcome}
    (h : resume E call fuel d .prepare = some (o,d')) :
    Ticks E call (d,.prepare) (d',.done o) := by
  cases call with
  | openSqliteDatabase name => cases h
  | executeSqlite sql args =>
    by_cases hc : (d.prepareV2 E sql).1 = SQLITE_OK
    · have hstep : Tick E (.executeSqlite sql args) (d,.prepare)
          ((d.prepareV2 E sql).2,.bind 1 args) := by simp [Tick,callStep,hc]
      simp only [resume,hc,ne_eq,not_true,if_false,Option.some.injEq,Prod.map,id,
        Prod.mk.injEq] at h
      obtain ⟨rfl,rfl⟩ := h
      exact .head hstep ((ticks_bind 1 args).trans (.head rfl ticks_executeStep))
    · have hstep : Tick E (.executeSqlite sql args) (d,.prepare)
          ((d.prepareV2 E sql).2,.compileErrmsg (d.prepareV2 E sql).1) := by
        simp [Tick,callStep,hc]
      simp only [resume,hc,ne_eq,not_false_iff,if_true,Option.some.injEq,Prod.mk.injEq] at h
      obtain ⟨rfl,rfl⟩ := h
      exact .head hstep (.single rfl)
  | executeSqliteSelect sql args =>
    by_cases hc : (d.prepareV2 E sql).1 = SQLITE_OK
    · have hstep : Tick E (.executeSqliteSelect sql args) (d,.prepare)
          ((d.prepareV2 E sql).2,.bind 1 args) := by simp [Tick,callStep,hc]
      simp only [resume,hc,ne_eq,not_true,if_false] at h
      exact .head hstep ((ticks_bind 1 args).trans
        (.head rfl (.head rfl (ticks_selectStep h))))
    · have hstep : Tick E (.executeSqliteSelect sql args) (d,.prepare)
          ((d.prepareV2 E sql).2,.compileErrmsg (d.prepareV2 E sql).1) := by
        simp [Tick,callStep,hc]
      simp only [resume,hc,ne_eq,not_false_iff,if_true,Option.some.injEq,Prod.mk.injEq] at h
      obtain ⟨rfl,rfl⟩ := h
      exact .head hstep (.single rfl)

theorem ticks_of_runCall {fuel : ℕ} {o : Outcome} (h : runCall E fuel d call = some (o,d')) :
    Ticks E call (d,.start) (d',.done o) := by
  cases call with
  | openSqliteDatabase name =>
    by_cases hname : name = ""
    · simp only [runCall,openSqliteDatabase,hname,if_true,Option.some.injEq,Prod.map,id,
        Prod.mk.injEq] at h
      obtain ⟨rfl,rfl⟩ := h
      exact .single (by simp [Tick,callStep,hname])
    · by_cases hopened : (d.openV2 E name).1 = SQLITE_OK
      · simp only [runCall,openSqliteDatabase,hname,hopened,ne_eq,not_true,if_false,
          Option.some.injEq,Prod.map,id,Prod.mk.injEq] at h
        obtain ⟨rfl,rfl⟩ := h
        exact .single (by simp [Tick,callStep,hname,hopened])
      · have hstep : Tick E (.openSqliteDatabase name) (d,.start)
            ((d.openV2 E name).2,.openErrmsg) := by simp [Tick,callStep,hname,hopened]
        simp only [runCall,openSqliteDatabase,hname,hopened,ne_eq,not_false_iff,if_true,if_false,
          Option.some.injEq,Prod.map,id,Prod.mk.injEq] at h
        obtain ⟨rfl,rfl⟩ := h
        exact .head hstep (.single rfl)
  | executeSqlite sql args | executeSqliteSelect sql args =>
    by_cases hopen : d.self.sqlitePtr = none
    · simp only [runCall,executeSqlite,executeSqliteSelect,hopen,if_true,Option.map_some,
        Option.some.injEq,Prod.map,id,Prod.mk.injEq] at h
      obtain ⟨rfl,rfl⟩ := h
      exact .single (by simp [Tick,callStep,hopen])
    · rw [← resume_prepare hopen fuel (by simp)] at h
      exact .head (by simp [Tick,callStep,hopen]) (ticks_prepare h)

/-- An operation that nobody interrupts is the synchronous function: it returns exactly when
the function does, with the same answer and the same calls. -/
theorem ticks_iff_runCall {o : Outcome} :
    Ticks E call (d,.start) (d',.done o) ↔ ∃ fuel, runCall E fuel d call = some (o,d') := by
  constructor
  · exact resume_of_ticks
  · rintro ⟨fuel,h⟩
    exact ticks_of_runCall h

end Run

section Effect

def statementOf : Call → Option (String × List Paramter)
  | .openSqliteDatabase _ => none
  | .executeSqlite sql args | .executeSqliteSelect sql args => some (sql,args)

/-- Between a successful prepare and the last step: the next API call reads `M_sqlite_stmt`. -/
@[simp] def usesStatement : CallPc → Bool
  | .bind _ _ | .executeStep | .columnCount | .selectStep _ _ | .columnText _ _ _ _ _ => true
  | _ => false

variable {E : Engine} {call : Call} {d d' : Db} {p p' : CallPc}

inductive Effect (E : Engine) (call : Call) (d d' : Db) (p p' : CallPc) : Prop
  | silent (db : d' = d) (keeps : usesStatement p' = usesStatement p)
  | opens (name : String) (text : call = .openSqliteDatabase name) (named : name ≠ "")
      (place : p = .start) (db : d' = (d.openV2 E name).2) (after : usesStatement p' = false)
  | prepares (sql : String) (args : List Paramter) (text : statementOf call = some (sql,args))
      (place : p = .prepare) (db : d' = (d.prepareV2 E sql).2)
      (after : usesStatement p' = true → p' = .bind 1 args)
  | statement (e : Event) (stmt : e.stmt = some d.self.sqliteStmt) (db : d' = d.log e)
      (before : usesStatement p = true)
  | connection (e : Event) (conn : e.conn = some d.self.sqlitePtr) (db : d' = d.log e)
      (quiet : e.isPrepare = false) (before : usesStatement p = false)
      (after : usesStatement p' = false)

theorem callStep_effect (h : callStep E call d p = some (d',p')) : Effect E call d d' p p' := by
  cases p with
  | start =>
    cases call with
    | openSqliteDatabase name =>
      simp only [callStep] at h
      split at h
      · cases h; exact .silent rfl rfl
      · next hname => split at h <;> cases h <;> exact .opens name rfl hname rfl rfl rfl
    | executeSqlite sql args | executeSqliteSelect sql args =>
      simp only [callStep] at h
      split at h <;> cases h <;> exact .silent rfl rfl
  | prepare =>
    cases call with
    | openSqliteDatabase name => cases h
    | executeSqlite sql args | executeSqliteSelect sql args =>
      simp only [callStep] at h
      split at h <;> cases h
      · exact .prepares sql args rfl rfl rfl (by simp)
      · exact .prepares sql args rfl rfl rfl fun _ => rfl
  | compileErrmsg ret =>
    cases call <;> cases h <;> exact .connection _ rfl rfl rfl rfl rfl
  | bind index rest =>
    cases rest with
    | nil => cases call <;> cases h <;> exact .silent rfl rfl
    | cons p rest => cases h; exact .statement _ rfl rfl rfl
  | executeStep =>
    simp only [callStep] at h
    split at h <;> cases h <;> exact .statement _ rfl rfl rfl
  | selectStep count rows =>
    simp only [callStep] at h
    split at h <;> cases h <;> exact .statement _ rfl rfl rfl
  | columnCount => cases h; exact .statement _ rfl rfl rfl
  | columnText count rows remaining index row =>
    cases remaining with
    | zero => cases h; exact .silent rfl rfl
    | succ k => cases h; exact .statement _ rfl rfl rfl
  | openErrmsg | changes | stepErrmsg => cases h; exact .connection _ rfl rfl rfl rfl rfl
  | done outcome => cases h

theorem callStep_calls (h : callStep E call d p = some (d',p')) :
    ∃ es : History, d'.calls = es ++ d.calls := by
  rcases callStep_effect h with ⟨rfl,-⟩ | ⟨name,-,-,-,rfl,-⟩ | ⟨sql,args,-,-,rfl,-⟩ | ⟨e,-,rfl,-⟩ |
    ⟨e,-,rfl,-⟩
  · exact ⟨[],rfl⟩
  all_goals exact ⟨[_],rfl⟩

end Effect

section Answers

variable {E : Engine} {call : Call} {self : Object} {calls calls' : History} {e : Db}
  {p q : CallPc}

/-- After two histories with the same answers an operation goes on alike. -/
theorem callStep_sameAnswers (hsame : SameAnswers E calls calls')
    (h : callStep E call ⟨self,calls⟩ p = some (e,q)) :
    ∃ es, e.calls = es ++ calls ∧
      callStep E call ⟨self,calls'⟩ p = some (⟨e.self,es ++ calls'⟩,q) := by
  cases p with
  | start =>
    cases call with
    | openSqliteDatabase name =>
      by_cases hname : name = ""
      · simp only [callStep,hname,if_true] at h ⊢
        cases h
        exact ⟨[],rfl,rfl⟩
      · by_cases hret : (E.openV2 calls (cString name)).1 = SQLITE_OK
        · simp only [callStep,Db.openV2,hname,hsame.openV2,hret,ne_eq,not_true,if_false] at h ⊢
          cases h
          exact ⟨[_],rfl,rfl⟩
        · simp only [callStep,Db.openV2,hname,hsame.openV2,hret,ne_eq,not_false_iff,if_true,
            if_false] at h ⊢
          cases h
          exact ⟨[_],rfl,rfl⟩
    | executeSqlite sql args | executeSqliteSelect sql args =>
      by_cases hptr : self.sqlitePtr = none
      · simp only [callStep,hptr,if_true] at h ⊢
        cases h
        exact ⟨[],rfl,rfl⟩
      · simp only [callStep,hptr,if_false] at h ⊢
        cases h
        exact ⟨[],rfl,rfl⟩
  | prepare =>
    cases call with
    | openSqliteDatabase name => cases h
    | executeSqlite sql args | executeSqliteSelect sql args =>
      by_cases hret : (E.prepareV2 calls self.sqlitePtr (cString sql)).1 = SQLITE_OK
      · simp only [callStep,Db.prepareV2,hsame.prepareV2,hret,ne_eq,not_true,if_false] at h ⊢
        cases h
        exact ⟨[_],rfl,rfl⟩
      · simp only [callStep,Db.prepareV2,hsame.prepareV2,hret,ne_eq,not_false_iff,if_true] at h ⊢
        cases h
        exact ⟨[_],rfl,rfl⟩
  | compileErrmsg ret =>
    cases call <;> simp only [callStep,Db.errmsg,hsame.errmsg] at h ⊢ <;> cases h <;>
      exact ⟨[_],rfl,rfl⟩
  | bind index rest =>
    cases rest with
    | nil => cases call <;> cases h <;> exact ⟨[],rfl,rfl⟩
    | cons a rest =>
      simp only [callStep,Db.bind,hsame.bind] at h ⊢
      cases h
      exact ⟨[_],rfl,rfl⟩
  | executeStep =>
    by_cases hret : E.step calls self.sqliteStmt = SQLITE_DONE
    · simp only [callStep,Db.step,hsame.step,hret,if_true] at h ⊢
      cases h
      exact ⟨[_],rfl,rfl⟩
    · simp only [callStep,Db.step,hsame.step,hret,if_false] at h ⊢
      cases h
      exact ⟨[_],rfl,rfl⟩
  | selectStep count rows =>
    by_cases hret : E.step calls self.sqliteStmt = SQLITE_ROW
    · simp only [callStep,Db.step,hsame.step,hret,if_true] at h ⊢
      cases h
      exact ⟨[_],rfl,rfl⟩
    · simp only [callStep,Db.step,hsame.step,hret,if_false] at h ⊢
      cases h
      exact ⟨[_],rfl,rfl⟩
  | columnText count rows remaining index row =>
    cases remaining with
    | zero => cases h; exact ⟨[],rfl,rfl⟩
    | succ k =>
      simp only [callStep,Db.columnText,hsame.columnText] at h ⊢
      cases h
      exact ⟨[_],rfl,rfl⟩
  | columnCount =>
    simp only [callStep,Db.columnCount,hsame.columnCount] at h ⊢
    cases h
    exact ⟨[_],rfl,rfl⟩
  | changes =>
    simp only [callStep,Db.changes,hsame.changes] at h ⊢
    cases h
    exact ⟨[_],rfl,rfl⟩
  | openErrmsg | stepErrmsg =>
    simp only [callStep,Db.errmsg,hsame.errmsg] at h ⊢
    cases h
    exact ⟨[_],rfl,rfl⟩
  | done outcome => cases h

end Answers

end CallSteps
end AlephSql
