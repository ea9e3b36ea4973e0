import AlephSql.Parameters

/-! The number of rows that `execute_sqlite` reports as affected. The engine keeps one count for
the whole connection, and a statement that changes no data leaves it as it is. -/
namespace AlephSql
namespace AffectedRows

open Sqlite Database Failure FailedCalls Parameters ResultRows

/-- What statements do to the data: which texts are an INSERT, an UPDATE or a DELETE, and how
many rows a statement changes that is stepped to its end. -/
structure Work where
  writes : String → Bool
  rows : History → Option StmtId → ℕ

def owns (s : StmtId) : Event → Option (Option ConnId)
  | .prepareV2 conn _ _ out => if out = some s then some conn else none
  | _ => none

def ownerOf (s : StmtId) (h : History) : Option ConnId := latest (owns s) h

def Writes (W : Work) (c : ConnId) (s : StmtId) (h : History) : Prop :=
  ownerOf s h = some c ∧ (textOf s h).any W.writes = true

instance {W : Work} {c : ConnId} {s : StmtId} {h : History} : Decidable (Writes W c s h) :=
  inferInstanceAs (Decidable (_ ∧ _))

/-- The count of the most recently completed INSERT, UPDATE or DELETE of a connection. -/
def lastChange (W : Work) (c : ConnId) : History → Option ℕ
  | [] => none
  | .step (some s) ret :: h =>
    if ret = SQLITE_DONE ∧ Writes W c s h then some (W.rows h (some s)) else lastChange W c h
  | _ :: h => lastChange W c h

/-- What `sqlite3_changes` returns, and that a null statement cannot be stepped. -/
structure ChangesLaws (E : Engine) (W : Work) : Prop where
  changes : ∀ h c, E.changes h (some c) = ((lastChange W c h).getD 0 : ℕ)
  null : ∀ h, E.step h none = SQLITE_MISUSE

/-- The rows that the statement of an `execute_sqlite` inserts, updates or deletes itself. -/
def ownRows (W : Work) (E : Engine) (d : Db) (sql : String) (args : List Paramter) : ℕ :=
  if W.writes (cString sql) then
    W.rows (bindArgs E 1 args (d.prepareV2 E sql).2).calls (d.prepareV2 E sql).2.self.sqliteStmt
  else 0

inductive Query
  | executeSqlite (sql : String) (args : List Paramter)
  | executeSqliteSelect (sql : String) (args : List Paramter)
  deriving DecidableEq, Repr

def answer (E : Engine) (fuel : ℕ) (d : Db) : Query → Option (ExecuteResult × Db)
  | .executeSqlite sql args => some (executeSqlite E d sql args)
  | .executeSqliteSelect sql args => executeSqliteSelect E fuel d sql args

structure Turn where
  before : Db
  query : Query
  result : ExecuteResult
  deriving DecidableEq, Repr

inductive Session (E : Engine) (d : Db) : List Turn → Db → Prop
  | start : Session E d [] d
  | turn {turns : List Turn} {e e' : Db} {fuel : ℕ} {query : Query} {r : ExecuteResult}
      (earlier : Session E d turns e) (answered : answer E fuel e query = some (r,e')) :
      Session E d (⟨e,query,r⟩ :: turns) e'

section Connection

variable {E : Engine} {d d' : Db} {sql : String} {args : List Paramter}

theorem bindArgs_prepared_ptr :
    (bindArgs E 1 args (d.prepareV2 E sql).2).self.sqlitePtr = d.self.sqlitePtr := by
  rw [bindArgs_self]
  rfl

theorem answer_ptr {fuel : ℕ} {query : Query} {r : ExecuteResult}
    (h : answer E fuel d query = some (r,d')) : d'.self.sqlitePtr = d.self.sqlitePtr := by
  cases query with
  | executeSqlite sql args =>
    have hd' : d' = (executeSqlite E d sql args).2 := (congrArg Prod.snd (Option.some.inj h)).symm
    rcases executeSqlite_cases E d sql args with ⟨-,hx⟩ | ⟨-,-,hx⟩ | ⟨-,-,-,hx⟩ | ⟨-,-,-,hx⟩
    · rw [hd',hx]
    · rw [hd',hx]
      rfl
    · rw [hd',hx]
      exact bindArgs_prepared_ptr
    · rw [hd',hx]
      exact bindArgs_prepared_ptr
  | executeSqliteSelect sql args =>
    rcases executeSqliteSelect_cases h with ⟨-,-,hd'⟩ | ⟨-,-,-,hd'⟩ | ⟨-,-,rows,-,hfetched⟩
    · rw [hd']
    · rw [hd']
      rfl
    · have hcounted : (counted E d sql args).2.self.sqlitePtr = d.self.sqlitePtr :=
        bindArgs_prepared_ptr
      exact fetchRows_rule (P := fun x => x.self.sqlitePtr = d.self.sqlitePtr)
        (fun _ hx => hx) (fun _ _ hx => hx) hcounted hfetched

theorem Session.ptr {turns : List Turn} {c : ConnId} (hs : Session E d turns d')
    (hd : d.self.sqlitePtr = some c) :
    d'.self.sqlitePtr = some c ∧ ∀ t ∈ turns, t.before.self.sqlitePtr = some c := by
  induction hs with
  | start => exact ⟨hd,by simp⟩
  | turn _ answered ih =>
    refine ⟨(answer_ptr answered).trans ih.1,fun t ht => ?_⟩
    rcases List.mem_cons.mp ht with rfl | ht
    · exact ih.1
    · exact ih.2 t ht

theorem Session.execute {turns : List Turn} (hs : Session E d turns d') (sql : String)
    (args : List Paramter) :
    Session E d (⟨d',.executeSqlite sql args,(executeSqlite E d' sql args).1⟩ :: turns)
      (executeSqlite E d' sql args).2 := by
  have hanswer : answer E 0 d' (.executeSqlite sql args) = some (executeSqlite E d' sql args) := rfl
  exact hs.turn hanswer

theorem Session.answered {turns : List Turn} (hs : Session E d turns d') :
    ∀ t ∈ turns, ∃ fuel e, answer E fuel t.before t.query = some (t.result,e) := by
  induction hs with
  | start => simp
  | turn _ answered ih =>
    intro t ht
    rcases List.mem_cons.mp ht with rfl | ht
    · exact ⟨_,_,answered⟩
    · exact ih t ht

end Connection

section Count

variable {E : Engine} {W : Work} {d : Db} {sql : String} {args : List Paramter} {c : ConnId}
  {s : StmtId} {e : Event} {h : History}

theorem lastChange_cons_other (he : isStep e = false) :
    lastChange W c (e :: h) = lastChange W c h := by
  cases e with
  | step => cases he
  | _ => rfl

theorem lastChange_bindArgs (index : ℕ) :
    lastChange W c (bindArgs E index args d).calls = lastChange W c d.calls :=
  bindArgs_rule (P := fun x => lastChange W c x.calls = lastChange W c d.calls)
    (fun _ _ _ hd => (lastChange_cons_other rfl).trans hd) rfl index

theorem latest_bindArgs {β : Type} {f : Event → Option (Option β)}
    (hf : ∀ stmt i value ret, f (.bind stmt i value ret) = none) (index : ℕ) :
    latest f (bindArgs E index args d).calls = latest f d.calls :=
  bindArgs_rule (P := fun x => latest f x.calls = latest f d.calls)
    (fun _ _ _ hd => (latest_cons_none (hf _ _ _ _) _).trans hd) rfl index

theorem writes_prepared (hd : d.self.sqlitePtr = some c)
    (hs : (d.prepareV2 E sql).2.self.sqliteStmt = some s) :
    Writes W c s (bindArgs E 1 args (d.prepareV2 E sql).2).calls ↔
      W.writes (cString sql) = true := by
  have hout : (E.prepareV2 d.calls (some c) (cString sql)).2 = some s := by
    rw [← hs,Db.prepareV2,hd]
  have howner : ownerOf s (d.prepareV2 E sql).2.calls = some c := by
    simp [ownerOf,Db.prepareV2,latest_cons,owns,hout,hd]
  have htext : textOf s (d.prepareV2 E sql).2.calls = some (cString sql) := by
    simp [textOf,Db.prepareV2,latest_cons,names,hout,hd]
  rw [Writes,ownerOf,textOf,latest_bindArgs (fun _ _ _ _ => rfl),
    latest_bindArgs (fun _ _ _ _ => rfl),← ownerOf,← textOf,howner,htext]
  simp

/-- The count after the step of `execute_sqlite`: the rows of its own statement if that is an
INSERT, an UPDATE or a DELETE, and otherwise what it was. -/
theorem lastChange_stepped (hnull : ∀ h, E.step h none = SQLITE_MISUSE)
    (hd : d.self.sqlitePtr = some c) (hdone : stepRet E d sql args = SQLITE_DONE) :
    lastChange W c (stepped E d sql args).calls =
      if W.writes (cString sql) then some (ownRows W E d sql args) else lastChange W c d.calls := by
  obtain ⟨s,hs⟩ := stepped_of_done hnull hdone
  rw [stepped_self] at hs
  have hbefore : lastChange W c (bindArgs E 1 args (d.prepareV2 E sql).2).calls =
      lastChange W c d.calls := (lastChange_bindArgs 1).trans (lastChange_cons_other rfl)
  rw [stepped_calls,stepped_self,hs,lastChange,hbefore]
  simp only [hdone,true_and,writes_prepared hd hs,ownRows,hs]
  by_cases hwrites : W.writes (cString sql) = true <;> simp [hwrites]

/-- What a successful `execute_sqlite` reports: the rows of its own statement, or the count
that it has found. -/
theorem affectedRow_eq (hE : ChangesLaws E W) (hd : d.self.sqlitePtr = some c)
    (hsuccess : (executeSqlite E d sql args).1.sqlite3ExecuteStatus = true) :
    (executeSqlite E d sql args).1.sqlite3AffectedRow =
      (if W.writes (cString sql) then ownRows W E d sql args
        else (lastChange W c d.calls).getD 0 : ℕ) := by
  obtain ⟨hdone,hx⟩ := executeSqlite_success hsuccess
  have hptr : (stepped E d sql args).self.sqlitePtr = some c := by
    rw [stepped_self]
    exact hd
  rw [hx,executed,Db.changes,hptr,hE.changes,lastChange_stepped hE.null hd hdone]
  split <;> rfl

end Count

/-- Over every session on one connection, a successful `execute_sqlite` reports the rows of its
own statement if and only if that is an INSERT, an UPDATE or a DELETE, or the one completed
before it has changed no row. -/
theorem affected_row_own_iff (E : Engine) (W : Work) (hE : ChangesLaws E W) (c : ConnId)
    (d d' : Db) (hd : d.self.sqlitePtr = some c) (turns : List Turn)
    (hs : Session E d turns d') :
    ∀ t ∈ turns, ∀ sql args, t.query = .executeSqlite sql args →
      t.result.sqlite3ExecuteStatus = true →
      (t.result.sqlite3AffectedRow = ownRows W E t.before sql args ↔
        W.writes (cString sql) = true ∨ (lastChange W c t.before.calls).getD 0 = 0) := by
  intro t ht sql args hquery hsuccess
  have hptr := (hs.ptr hd).2 t ht
  obtain ⟨fuel,e,hanswer⟩ := hs.answered t ht
  rw [hquery] at hanswer
  have hresult : t.result = (executeSqlite E t.before sql args).1 :=
    (congrArg Prod.fst (Option.some.inj hanswer)).symm
  rw [hresult] at hsuccess ⊢
  rw [affectedRow_eq hE hptr hsuccess]
  by_cases hwrites : W.writes (cString sql) = true
  · simp [hwrites]
  · simp [hwrites,ownRows]

section Samples

def insertSql : String := "INSERT INTO test (name, age) VALUES ('Nana', 16)"

def createSql : String := "CREATE TABLE other (id INTEGER)"

def oneInsert : Work := ⟨fun text => text = insertSql,fun _ _ => 1⟩

def counting : Engine :=
  { sampleEngine with
    step := fun _ stmt => if stmt = none then SQLITE_MISUSE else SQLITE_DONE
    changes := fun h conn => ((conn.bind fun c => lastChange oneInsert c h).getD 0 : ℕ) }

theorem changesLaws_counting : ChangesLaws counting oneInsert := ⟨fun _ _ => rfl,fun _ => rfl⟩

theorem affected_row_own_iff_insert :
    (executeSqlite counting openedObject insertSql []).1.sqlite3AffectedRow =
      ownRows oneInsert counting openedObject insertSql [] :=
  (affected_row_own_iff counting oneInsert changesLaws_counting 1 openedObject _ rfl _
    (Session.start.execute insertSql []) _ List.mem_cons_self _ _ rfl rfl).mpr (.inl (by decide))

/-- After an INSERT of one row, a CREATE TABLE reports one affected row. -/
theorem create_reports_insert : ChangesLaws counting oneInsert ∧ ∃ t t' d',
    Session counting openedObject [t',t] d' ∧
    t.query = .executeSqlite insertSql [] ∧ t.result.sqlite3AffectedRow = 1 ∧
    t'.query = .executeSqlite createSql [] ∧ t'.result.sqlite3ExecuteStatus = true ∧
    t'.result.sqlite3AffectedRow = 1 ∧ ownRows oneInsert counting t'.before createSql [] = 0 :=
  ⟨changesLaws_counting,_,_,_,(Session.start.execute insertSql []).execute createSql [],
    rfl,rfl,rfl,rfl,rfl,rfl⟩

end Samples

end AffectedRows
end AlephSql
