import AlephSql.CallSteps
import AlephSql.Interleave

/-! Operations of several workers on one object. They share `M_sqlite_stmt`: a prepare stores
its handle there, and every later call of an operation reads the member anew. -/
namespace AlephSql
namespace StatementMixing

open Sqlite Database CallSteps Transition Interleave

variable {ι : Type} {E : Engine} {calls : ι → Call} {d₀ : Db}

/-- The object, and who has made which API call since `d₀`, the latest first. -/
structure Shared (ι : Type) where
  self : Object
  trace : List (ι × Event)

def db (d₀ : Db) (s : Shared ι) : Db := ⟨s.self,s.trace.map Prod.snd ++ d₀.calls⟩

/-- The operations `calls`, one thread each, on the object `d₀`. -/
def operations (E : Engine) (calls : ι → Call) (d₀ : Db) : Threads ι (Shared ι) CallPc where
  init s pc := s = ⟨d₀.self,[]⟩ ∧ pc = fun _ => .start
  step i s p s' p' := ∃ es : History,
    callStep E (calls i) (db d₀ s) p = some (⟨s'.self,es ++ (db d₀ s).calls⟩,p') ∧
      s'.trace = es.map (Prod.mk i) ++ s.trace

abbrev State (ι : Type) := Config ι (Shared ι) CallPc

def preparing : Event → Option (String × Option StmtId)
  | .prepareV2 _ sql _ out => some (sql,out)
  | _ => none

def binding : Event → Option (ℕ × Bound)
  | .bind _ index value _ => some (index,value)
  | _ => none

def prepares (h : History) : List (String × Option StmtId) := h.filterMap preparing

def binds (h : History) : List (ℕ × Bound) := (h.filterMap binding).reverse

def numbered : ℕ → List Paramter → List (ℕ × Bound)
  | _, [] => []
  | index, p :: rest => (index,bound p) :: numbered (index+1) rest

/-- Runs in which an operation prepares only while no other one has a statement call still to
make, unless the handle it replaces and the one it gets are both null. -/
def PreparesAlone (E : Engine) (calls : ι → Call) (d₀ : Db) : Guard ι (Shared ι) CallPc :=
  fun c i _ => c.pc i = .prepare → ∀ j, j ≠ i → usesStatement (c.pc j) = true →
    c.shared.self.sqliteStmt = none ∧ ∀ sql args, statementOf (calls i) = some (sql,args) →
      (E.prepareV2 (db d₀ c.shared).calls c.shared.self.sqlitePtr (cString sql)).2 = none

section Acts

variable {i : ι} {s s' : Shared ι} {p p' : CallPc}

/-- What one action does to the shared member and the trace. -/
inductive Acts (E : Engine) (call : Call) (d₀ : Db) (i : ι) (s s' : Shared ι) (p p' : CallPc) : Prop
  | silent (same : s' = s) (keeps : usesStatement p' = usesStatement p)
  | prepares (sql : String) (args : List Paramter) (ret : ℤ) (out : Option StmtId)
      (text : statementOf call = some (sql,args)) (place : p = .prepare)
      (answer : (E.prepareV2 (db d₀ s).calls s.self.sqlitePtr (cString sql)).2 = out)
      (self : s'.self.sqliteStmt = out)
      (trace : s'.trace = (i,.prepareV2 s.self.sqlitePtr (cString sql) ret out) :: s.trace)
  | statement (e : Event) (stmt : e.stmt = some s.self.sqliteStmt) (self : s'.self = s.self)
      (trace : s'.trace = (i,e) :: s.trace) (before : usesStatement p = true)
  | other (e : Event) (quiet : e.isPrepare = false) (stmt : e.stmt = none)
      (self : s'.self.sqliteStmt = s.self.sqliteStmt) (trace : s'.trace = (i,e) :: s.trace)
      (after : usesStatement p' = false)

theorem acts (h : (operations E calls d₀).step i s p s' p') : Acts E (calls i) d₀ i s s' p p' := by
  obtain ⟨es,hstep,htrace⟩ := h
  have hlog : ∀ e, es ++ (db d₀ s).calls = e :: (db d₀ s).calls → s'.trace = (i,e) :: s.trace := by
    intro e he
    have hes : es = [e] := List.append_cancel_right (he : _ = [e] ++ _)
    rw [htrace,hes]
    rfl
  rcases callStep_effect hstep with ⟨hd,hkeeps⟩ | ⟨name,-,-,-,hd,hafter⟩ |
    ⟨sql,args,htext,hp,hd,-⟩ | ⟨e,hstmt,hd,hbefore⟩ | ⟨e,hconn,hd,hquiet,-,hafter⟩
  · have hself : s'.self = s.self := congrArg Db.self hd
    have hes : es = [] := by simpa using congrArg Db.calls hd
    refine .silent ?_ hkeeps
    cases s'
    simp_all
  · exact .other _ rfl rfl (congrArg (fun d => d.self.sqliteStmt) hd)
      (hlog _ (congrArg Db.calls hd)) hafter
  · exact .prepares sql args _ _ htext hp rfl (congrArg (fun d => d.self.sqliteStmt) hd)
      (hlog _ (congrArg Db.calls hd))
  · exact .statement e hstmt (congrArg Db.self hd) (hlog _ (congrArg Db.calls hd)) hbefore
  · have hstmt : e.stmt = none := by cases e <;> simp_all [Event.conn,Event.stmt]
    exact .other e hquiet hstmt (congrArg (fun d => d.self.sqliteStmt) hd)
      (hlog _ (congrArg Db.calls hd)) hafter

end Acts

section Prepared

variable {ok : Guard ι (Shared ι) CallPc} {c : State ι}

theorem mem_prepared {d₀ : Db} {s : Shared ι} {i : ι} {conn : Option ConnId} {sql : String}
    {ret : ℤ} {stmt : StmtId} (h : (i,.prepareV2 conn sql ret (some stmt)) ∈ s.trace) :
    stmt ∈ (prepared (db d₀ s).calls).map Prod.fst := by
  have hcalls : Event.prepareV2 conn sql ret (some stmt) ∈ (db d₀ s).calls :=
    List.mem_append_left _ (List.mem_map_of_mem h)
  have hprepared : (stmt,conn) ∈ prepared (db d₀ s).calls :=
    List.mem_filterMap.mpr ⟨_,hcalls,rfl⟩
  exact List.mem_map.mpr ⟨_,hprepared,rfl⟩

theorem prepared_once (hfresh : PrepareFresh E) (hc : Reach (operations E calls d₀).lts ok c)
    {i j : ι} {conn conn' : Option ConnId} {sql sql' : String} {ret ret' : ℤ} {s : StmtId}
    (hi : (i,.prepareV2 conn sql ret (some s)) ∈ c.shared.trace)
    (hj : (j,.prepareV2 conn' sql' ret' (some s)) ∈ c.shared.trace) : i = j := by
  revert i j conn conn' sql sql' ret ret' s
  refine hc.invariant (I := fun c => ∀ {i j conn conn' sql sql' ret ret' s},
    (i,.prepareV2 conn sql ret (some s)) ∈ c.shared.trace →
      (j,.prepareV2 conn' sql' ret' (some s)) ∈ c.shared.trace → i = j) ?_ ?_
  · rintro c ⟨hs,-⟩ i j conn conn' sql sql' ret ret' s hi
    simp [hs] at hi
  · rintro c k d hc honce - ⟨h,-⟩ i j conn conn' sql sql' ret ret' s hi hj
    rcases acts h with ⟨hsame,-⟩ | ⟨text,args,code,out,-,-,hanswer,-,htrace⟩ |
      ⟨e,hstmt,-,htrace,-⟩ | ⟨e,hquiet,-,-,htrace,-⟩
    · rw [hsame] at hi hj
      exact honce hi hj
    · rw [htrace,List.mem_cons,Prod.mk.injEq] at hi hj
      -- a handle handed out now has not been handed out before
      have hnew : ∀ {l conn sql ret}, (l,.prepareV2 conn sql ret (some s)) ∈ c.shared.trace →
          out ≠ some s := fun hl hout => hfresh _ _ _ _ (hanswer.trans hout) (mem_prepared hl)
      rcases hi with ⟨rfl,hi⟩ | hi <;> rcases hj with ⟨rfl,hj⟩ | hj
      · rfl
      · cases hi
        exact absurd rfl (hnew hj)
      · cases hj
        exact absurd rfl (hnew hi)
      · exact honce hi hj
    · rw [htrace,List.mem_cons,Prod.mk.injEq] at hi hj
      have hne : ∀ {conn sql ret}, Event.prepareV2 conn sql ret (some s) ≠ e := by
        rintro conn sql ret rfl
        cases hstmt
      exact honce (hi.resolve_left fun h => hne h.2) (hj.resolve_left fun h => hne h.2)
    · rw [htrace,List.mem_cons,Prod.mk.injEq] at hi hj
      have hne : ∀ {conn sql ret}, Event.prepareV2 conn sql ret (some s) ≠ e := by
        rintro conn sql ret rfl
        cases hquiet
      exact honce (hi.resolve_left fun h => hne h.2) (hj.resolve_left fun h => hne h.2)

end Prepared

theorem alone_of_ticks {i : ι} {s : Shared ι} {d' : Db} {p p' : CallPc}
    (h : Ticks E (calls i) (db d₀ s,p) (d',p')) :
    ∃ s', Alone (operations E calls d₀) i (s,p) (s',p') ∧ db d₀ s' = d' := by
  generalize hb : (d',p') = b at h
  induction h generalizing d' p' with
  | refl =>
    cases hb
    exact ⟨s,.refl,rfl⟩
  | @tail a b _ hstep ih =>
    subst hb
    obtain ⟨s',halone,hdb⟩ := ih rfl
    obtain ⟨es,hes⟩ := callStep_calls hstep
    refine ⟨⟨d'.self,es.map (Prod.mk i) ++ s'.trace⟩,alone_next halone ⟨es,?_,rfl⟩,?_⟩
    · rw [hdb,← hes]
      exact hstep
    · have hcalls : (db d₀ s').calls = a.1.calls := congrArg Db.calls hdb
      calc db d₀ ⟨d'.self,es.map (Prod.mk i) ++ s'.trace⟩
          = ⟨d'.self,es ++ (db d₀ s').calls⟩ := by simp [db,Function.comp_def]
        _ = d' := by rw [hcalls,← hes]

variable [DecidableEq ι]

def ownCalls (i : ι) (trace : List (ι × Event)) : History :=
  (trace.filter fun x => x.1 = i).map Prod.snd

/-- Every statement call acts on the handle that the operation's own prepare has returned, that
statement was compiled from its own text, its own parameters are bound to it in order, and no
other operation touches it. -/
structure Unmixed (calls : ι → Call) (trace : List (ι × Event)) : Prop where
  own : ∀ i e s, (i,e) ∈ trace → e.stmt = some s → ∃ sql args,
    statementOf (calls i) = some (sql,args) ∧ prepares (ownCalls i trace) = [(cString sql,s)]
  params : ∀ i sql args, statementOf (calls i) = some (sql,args) →
    binds (ownCalls i trace) <+: numbered 1 args
  sole : ∀ i j e sql s, prepares (ownCalls i trace) = [(sql,some s)] → (j,e) ∈ trace →
    e.stmt = some (some s) → j = i

section Own

@[simp] theorem ownCalls_self (i : ι) (es : History) (trace : List (ι × Event)) :
    ownCalls i (es.map (Prod.mk i) ++ trace) = es ++ ownCalls i trace := by
  have hall : (es.map (Prod.mk i)).filter (fun x => decide (x.1 = i)) = es.map (Prod.mk i) := by
    rw [List.filter_eq_self]
    simp
  simp [ownCalls,List.filter_append,hall,Function.comp_def]

theorem ownCalls_other {i j : ι} (h : j ≠ i) (es : History) (trace : List (ι × Event)) :
    ownCalls j (es.map (Prod.mk i) ++ trace) = ownCalls j trace := by
  have hnone : (es.map (Prod.mk i)).filter (fun x => decide (x.1 = j)) = [] := by
    rw [List.filter_eq_nil_iff]
    simp [Ne.symm h]
  simp [ownCalls,List.filter_append,hnone]

@[simp] theorem ownCalls_cons_self (i : ι) (e : Event) (trace : List (ι × Event)) :
    ownCalls i ((i,e) :: trace) = e :: ownCalls i trace := ownCalls_self i [e] trace

theorem ownCalls_cons_other {i j : ι} (h : j ≠ i) (e : Event) (trace : List (ι × Event)) :
    ownCalls j ((i,e) :: trace) = ownCalls j trace := ownCalls_other h [e] trace

theorem mem_ownCalls {i : ι} {e : Event} {trace : List (ι × Event)} :
    e ∈ ownCalls i trace ↔ (i,e) ∈ trace := by
  simp [ownCalls]

end Own

section Told

def Compiled (call : Call) (h : History) (left : List (ℕ × Bound)) : Prop :=
  ∃ sql args s, statementOf call = some (sql,args) ∧ prepares h = [(cString sql,s)] ∧
    binds h ++ left = numbered 1 args

def Blank (h : History) : Prop := prepares h = [] ∧ binds h = []

/-- What the calls of an operation say about it, by the point where it stands. -/
def Told (call : Call) (h : History) : CallPc → Prop
  | .start | .prepare => Blank h
  | .bind index rest => Compiled call h (numbered index rest)
  | .executeStep | .columnCount | .selectStep _ _ | .columnText _ _ _ _ _ | .changes
  | .stepErrmsg _ => Compiled call h []
  | .openErrmsg | .compileErrmsg _ | .done _ => Blank h ∨ ∃ left, Compiled call h left

theorem prepares_cons (e : Event) (h : History) :
    prepares (e :: h) = (preparing e).toList ++ prepares h := filterMap_cons_toList _ _ _

theorem binds_cons (e : Event) (h : History) :
    binds (e :: h) = binds h ++ (binding e).toList := by
  cases he : binding e <;> simp [binds,he]

theorem Compiled.log {call : Call} {h : History} {left : List (ℕ × Bound)} {e : Event}
    (hc : Compiled call h left) (hp : preparing e = none) (hb : binding e = none) :
    Compiled call (e :: h) left := by
  obtain ⟨sql,args,s,htext,hprep,hbind⟩ := hc
  exact ⟨sql,args,s,htext,by simp [prepares_cons,hp,hprep],by simp [binds_cons,hb,hbind]⟩

theorem Blank.log {h : History} {e : Event} (hc : Blank h) (hp : preparing e = none)
    (hb : binding e = none) : Blank (e :: h) :=
  ⟨by simp [prepares_cons,hp,hc.1],by simp [binds_cons,hb,hc.2]⟩

theorem settled_log {call : Call} {h : History} {e : Event}
    (hs : Blank h ∨ ∃ left, Compiled call h left) (hp : preparing e = none)
    (hb : binding e = none) : Blank (e :: h) ∨ ∃ left, Compiled call (e :: h) left := by
  rcases hs with hblank | ⟨left,hc⟩
  · exact .inl (hblank.log hp hb)
  · exact .inr ⟨left,hc.log hp hb⟩

theorem Blank.prepare {call : Call} {h : History} {sql : String} {args : List Paramter}
    (hb : Blank h) (htext : statementOf call = some (sql,args)) (conn : Option ConnId) (ret : ℤ)
    (s : Option StmtId) :
    Compiled call (.prepareV2 conn (cString sql) ret s :: h) (numbered 1 args) := by
  obtain ⟨hprep,hbind⟩ := hb
  refine ⟨sql,args,s,htext,?_,?_⟩
  · rw [prepares_cons,hprep]
    rfl
  · rw [binds_cons,hbind]
    rfl

theorem Compiled.bind {call : Call} {h : History} {index : ℕ} {value : Bound}
    {left : List (ℕ × Bound)} (hc : Compiled call h ((index,value) :: left))
    (stmt : Option StmtId) (ret : ℤ) : Compiled call (.bind stmt index value ret :: h) left := by
  obtain ⟨sql,args,s,htext,hprep,hbind⟩ := hc
  refine ⟨sql,args,s,htext,?_,?_⟩
  · rw [prepares_cons,hprep]
    rfl
  · rw [binds_cons,List.append_assoc]
    exact hbind

variable {call : Call} {d d' : Db} {h : History} {p p' : CallPc}

/-- An action adds at most one call to those an operation has made, and they keep telling the
same about it. -/
theorem told_step (hstep : callStep E call d p = some (d',p')) (ht : Told call h p) :
    ∃ es : History, d'.calls = es ++ d.calls ∧ Told call (es ++ h) p' := by
  cases p with
  | start =>
    cases call with
    | openSqliteDatabase name =>
      simp only [callStep] at hstep
      split at hstep
      · cases hstep
        exact ⟨[],rfl,.inl ht⟩
      · split at hstep <;> cases hstep <;> exact ⟨[_],rfl,.inl (ht.log rfl rfl)⟩
    | executeSqlite sql args | executeSqliteSelect sql args =>
      simp only [callStep] at hstep
      split at hstep <;> cases hstep
      · exact ⟨[],rfl,.inl ht⟩
      · exact ⟨[],rfl,ht⟩
  | prepare =>
    cases call with
    | openSqliteDatabase name => cases hstep
    | executeSqlite sql args | executeSqliteSelect sql args =>
      simp only [callStep] at hstep
      split at hstep <;> cases hstep
      · exact ⟨[_],rfl,.inr ⟨_,ht.prepare rfl _ _ _⟩⟩
      · exact ⟨[_],rfl,ht.prepare rfl _ _ _⟩
  | openErrmsg =>
    cases hstep
    exact ⟨[_],rfl,settled_log ht rfl rfl⟩
  | compileErrmsg ret =>
    cases call <;> cases hstep <;> exact ⟨[_],rfl,settled_log ht rfl rfl⟩
  | bind index rest =>
    cases rest with
    | nil => cases call <;> cases hstep <;> exact ⟨[],rfl,ht⟩
    | cons a rest =>
      cases hstep
      exact ⟨[_],rfl,Compiled.bind ht _ _⟩
  | executeStep =>
    simp only [callStep] at hstep
    split at hstep <;> cases hstep <;> exact ⟨[_],rfl,ht.log rfl rfl⟩
  | changes | stepErrmsg =>
    cases hstep
    exact ⟨[_],rfl,.inr ⟨_,ht.log rfl rfl⟩⟩
  | columnCount => cases hstep; exact ⟨[_],rfl,ht.log rfl rfl⟩
  | selectStep count rows =>
    simp only [callStep] at hstep
    split at hstep <;> cases hstep
    · exact ⟨[_],rfl,ht.log rfl rfl⟩
    · exact ⟨[_],rfl,.inr ⟨_,ht.log rfl rfl⟩⟩
  | columnText count rows remaining index row =>
    cases remaining with
    | zero => cases hstep; exact ⟨[],rfl,ht⟩
    | succ k => cases hstep; exact ⟨[_],rfl,ht.log rfl rfl⟩
  | done outcome => cases hstep

end Told

section Reachable

variable {ok : Guard ι (Shared ι) CallPc} {c : State ι}

theorem told (hc : Reach (operations E calls d₀).lts ok c) (i : ι) :
    Told (calls i) (ownCalls i c.shared.trace) (c.pc i) := by
  refine local_invariant
    (Q := fun i s p => Told (calls i) (ownCalls i s.trace) p) ?_ ?_ ?_ hc i
  · rintro s pc ⟨rfl,rfl⟩ i
    exact ⟨rfl,rfl⟩
  · rintro c d i - - ⟨es,hstep,htrace⟩ hq
    obtain ⟨es',hcalls,ht⟩ := told_step hstep (hq i)
    rw [htrace,ownCalls_self,List.append_cancel_right hcalls]
    exact ht
  · rintro c d i j hj - - ⟨es,-,htrace⟩ hq
    rw [htrace,ownCalls_other hj]
    exact hq j

theorem Told.settled {call : Call} {h : History} {p : CallPc} (ht : Told call h p) :
    Blank h ∨ ∃ left, Compiled call h left := by
  cases p with
  | start | prepare => exact .inl ht
  | openErrmsg | compileErrmsg | done => exact ht
  | _ => exact .inr ⟨_,ht⟩

theorem preparing_eq_none {e : Event} (h : e.isPrepare = false) : preparing e = none := by
  cases e with
  | prepareV2 => cases h
  | _ => rfl

theorem prepares_ownCalls {e : Event} (h : e.isPrepare = false) (i j : ι)
    (trace : List (ι × Event)) :
    prepares (ownCalls j ((i,e) :: trace)) = prepares (ownCalls j trace) := by
  by_cases hj : j = i
  · subst hj
    rw [ownCalls_cons_self,prepares_cons,preparing_eq_none h]
    rfl
  · rw [ownCalls_cons_other hj]

/-- In a run of lonely prepares the member is the own handle of whoever still uses it. -/
theorem holding (hc : Reach (operations E calls d₀).lts (PreparesAlone E calls d₀) c) (i : ι)
    (hi : usesStatement (c.pc i) = true) :
    ∃ sql, prepares (ownCalls i c.shared.trace) = [(sql,c.shared.self.sqliteStmt)] := by
  refine local_invariant (Q := fun i s p => usesStatement p = true →
    ∃ sql, prepares (ownCalls i s.trace) = [(sql,s.self.sqliteStmt)]) ?_ ?_ ?_ hc i hi
  · rintro s pc ⟨rfl,rfl⟩ i hi
    cases hi
  · intro c d i hc hok h hq hd
    rcases acts h with ⟨hsame,hkeeps⟩ | ⟨sql,args,ret,out,-,hp,-,hself,htrace⟩ |
      ⟨e,hstmt,hself,htrace,hbefore⟩ | ⟨e,-,-,-,-,hafter⟩
    · rw [hsame]
      exact hq i (hkeeps ▸ hd)
    · have hblank := told hc i
      rw [hp] at hblank
      refine ⟨cString sql,?_⟩
      rw [htrace,hself,ownCalls_cons_self,prepares_cons,hblank.1]
      rfl
    · rw [htrace,hself,prepares_ownCalls (isPrepare_of_stmt hstmt)]
      exact hq i hbefore
    · rw [hafter] at hd
      cases hd
  · intro c d i j hj hc hok h hq hd
    obtain ⟨sql,hprep⟩ := hq j hd
    refine ⟨sql,?_⟩
    rcases acts h with ⟨hsame,-⟩ | ⟨sql',args,ret,out,htext,hp,hanswer,hself,htrace⟩ |
      ⟨e,hstmt,hself,htrace,-⟩ | ⟨e,hquiet,-,hself,htrace,-⟩
    · rw [hsame]
      exact hprep
    · -- both the replaced handle and the new one are null
      obtain ⟨hold,hnew⟩ := hok hp j hj hd
      rw [htrace,ownCalls_cons_other hj,hprep,hself,← hanswer,hnew sql' args htext,hold]
    · rw [htrace,hself,prepares_ownCalls (isPrepare_of_stmt hstmt)]
      exact hprep
    · rw [htrace,hself,prepares_ownCalls hquiet]
      exact hprep

/-- Every statement call so far has used the handle of its operation's only prepare. -/
theorem own_handle (hc : Reach (operations E calls d₀).lts (PreparesAlone E calls d₀) c) {i : ι}
    {e : Event} {s : Option StmtId} (he : (i,e) ∈ c.shared.trace) (hs : e.stmt = some s) :
    ∃ sql, prepares (ownCalls i c.shared.trace) = [(sql,s)] := by
  revert i e s
  refine hc.invariant (I := fun c => ∀ {i e s}, (i,e) ∈ c.shared.trace → e.stmt = some s →
    ∃ sql, prepares (ownCalls i c.shared.trace) = [(sql,s)]) ?_ ?_
  · rintro c ⟨hs,-⟩ i e s he
    simp [hs] at he
  · rintro c k d hc hown - ⟨h,-⟩ i e s he hs
    rcases acts h with ⟨hsame,-⟩ | ⟨sql,args,ret,out,-,hp,-,-,htrace⟩ |
      ⟨e',hstmt,-,htrace,hbefore⟩ | ⟨e',hquiet,hnone,-,htrace,-⟩
    · rw [hsame] at he ⊢
      exact hown he hs
    · rw [htrace,List.mem_cons] at he
      rcases he with hnew | hold
      · cases hnew
        cases hs
      · obtain ⟨sql',hprep⟩ := hown hold hs
        have hik : i ≠ k := by
          rintro rfl
          have hblank := told hc i
          rw [hp] at hblank
          simp [hblank.1] at hprep
        exact ⟨sql',by rw [htrace,ownCalls_cons_other hik,hprep]⟩
    · rw [htrace] at he ⊢
      rw [prepares_ownCalls (isPrepare_of_stmt hstmt)]
      rcases List.mem_cons.mp he with hnew | hold
      · cases hnew
        obtain ⟨sql,hprep⟩ := holding hc k hbefore
        have heq : s = c.shared.self.sqliteStmt := Option.some.inj (hs.symm.trans hstmt)
        exact ⟨sql,heq ▸ hprep⟩
      · exact hown hold hs
    · rw [htrace] at he ⊢
      rw [prepares_ownCalls hquiet]
      rcases List.mem_cons.mp he with hnew | hold
      · cases hnew
        simp [hnone] at hs
      · exact hown hold hs

theorem mem_trace_of_prepares {i : ι} {trace : List (ι × Event)} {sql : String}
    {s : Option StmtId} (h : prepares (ownCalls i trace) = [(sql,s)]) :
    ∃ conn ret, (i,.prepareV2 conn sql ret s) ∈ trace := by
  have hmem : (sql,s) ∈ prepares (ownCalls i trace) := by simp [h]
  obtain ⟨e,he,hprep⟩ := List.mem_filterMap.mp hmem
  cases e with
  | prepareV2 conn text ret out =>
    cases hprep
    exact ⟨conn,ret,mem_ownCalls.mp he⟩
  | _ => cases hprep

end Reachable

/-- Operations do not mix their statements in runs in which each prepares while no other one
has a statement call still to make. -/
theorem statements_unmixed (E : Engine) (hfresh : PrepareFresh E) (calls : ι → Call) (d₀ : Db)
    (c : State ι) (hc : Reach (operations E calls d₀).lts (PreparesAlone E calls d₀) c) :
    Unmixed calls c.shared.trace where
  own i e s he hs := by
    obtain ⟨text,hprep⟩ := own_handle hc he hs
    rcases (told hc i).settled with ⟨hblank,-⟩ | ⟨left,sql,args,s',htext,hprep',-⟩
    · simp [hblank] at hprep
    · have heq : [(text,s)] = [(cString sql,s')] := hprep.symm.trans hprep'
      cases heq
      exact ⟨sql,args,htext,hprep'⟩
  params i sql args htext := by
    rcases (told hc i).settled with ⟨-,hblank⟩ | ⟨left,sql',args',s,htext',-,hbinds⟩
    · rw [hblank]
      exact List.nil_prefix
    · cases htext.symm.trans htext'
      exact ⟨left,hbinds⟩
  sole i j e sql s hprep he hs := by
    obtain ⟨sql',hprep'⟩ := own_handle hc he hs
    obtain ⟨conn,ret,hi⟩ := mem_trace_of_prepares hprep
    obtain ⟨conn',ret',hj⟩ := mem_trace_of_prepares hprep'
    exact prepared_once hfresh hc hj hi

section Alone

theorem reach_runCall {c : State ι}
    (hc : Reach (operations E calls d₀).lts (PreparesAlone E calls d₀) c) {i : ι}
    (hstart : c.pc i = .start) (hidle : ∀ j, j ≠ i → usesStatement (c.pc j) = false) (fuel : ℕ)
    {o : Outcome} {d' : Db} (hrun : runCall E fuel (db d₀ c.shared) (calls i) = some (o,d')) :
    ∃ s', Reach (operations E calls d₀).lts (PreparesAlone E calls d₀) (c.move i s' (.done o)) ∧
      db d₀ s' = d' := by
  obtain ⟨s',halone,hdb⟩ := alone_of_ticks (ticks_of_runCall hrun)
  refine ⟨s',?_,hdb⟩
  have hrun : Continues (operations E calls d₀).lts (PreparesAlone E calls d₀) _ _ :=
    continues_alone halone c fun d e hframe _ j hj hu => by
      rw [hframe j hj,hidle j hj] at hu
      cases hu
  simp only [← hstart,Config.move_pc] at hrun
  exact hc.continues hrun

end Alone

def twoCalls : Bool → Call
  | true => .executeSqlite "INSERT INTO test (age) VALUES (?)" [.int 16]
  | false => .executeSqlite "DELETE FROM test WHERE age = ?" [.int 17]

def openedObject : Db := ⟨⟨some 1,none⟩,[]⟩

theorem statements_unmixed_in_turn : ∃ c : State Bool,
    (∀ b, ∃ r, c.pc b = .done (.executed r)) ∧ Unmixed twoCalls c.shared.trace := by
  let start : State Bool := ⟨⟨openedObject.self,[]⟩,fun _ => .start⟩
  have hstart : Reach (operations sampleEngine twoCalls openedObject).lts
      (PreparesAlone sampleEngine twoCalls openedObject) start := .init ⟨rfl,rfl⟩
  obtain ⟨s,hfirst,-⟩ := reach_runCall hstart (i := true) rfl (fun _ _ => rfl) 0 rfl
  obtain ⟨s',hsecond,-⟩ := reach_runCall hfirst (i := false) rfl
    (fun j hj => by cases j <;> simp_all) 0 rfl
  refine ⟨_,fun b => ?_,
    statements_unmixed sampleEngine prepareFresh_sampleEngine twoCalls openedObject _ hsecond⟩
  cases b
  · exact ⟨_,Config.move_self _ _ _ _⟩
  · exact ⟨_,by rw [Config.move_other _ _ _ (by decide),Config.move_self]⟩

/-- Both operations prepare before the first one binds: its parameter goes to the statement of
the other. -/
theorem bind_on_foreign_statement : ∃ c : State Bool,
    Reachable (operations sampleEngine twoCalls openedObject).lts c ∧
      ¬Unmixed twoCalls c.shared.trace := by
  let start : State Bool := ⟨⟨openedObject.self,[]⟩,fun _ => .start⟩
  let insert : Bool × Event := (true,
    .prepareV2 (some 1) "INSERT INTO test (age) VALUES (?)" SQLITE_OK (some 1))
  let delete : Bool × Event := (false,
    .prepareV2 (some 1) "DELETE FROM test WHERE age = ?" SQLITE_OK (some 2))
  have h₀ : Reachable (operations sampleEngine twoCalls openedObject).lts start :=
    .init ⟨rfl,rfl⟩
  have h₁ := reach_move h₀ true (s := ⟨⟨some 1,none⟩,[]⟩) (p := .prepare) ⟨[],rfl,rfl⟩ trivial
  have h₂ := reach_move h₁ false (s := ⟨⟨some 1,none⟩,[]⟩) (p := .prepare) ⟨[],rfl,rfl⟩ trivial
  have h₃ := reach_move h₂ true (s := ⟨⟨some 1,some 1⟩,[insert]⟩) (p := .bind 1 [.int 16])
    ⟨[insert.2],by decide,rfl⟩ trivial
  have h₄ := reach_move h₃ false (s := ⟨⟨some 1,some 2⟩,[delete,insert]⟩)
    (p := .bind 1 [.int 17]) ⟨[delete.2],by decide,rfl⟩ trivial
  have h₅ := reach_move h₄ true
    (s := ⟨⟨some 1,some 2⟩,[(true,.bind (some 2) 1 (.int 16) SQLITE_OK),delete,insert]⟩)
    (p := .bind 2 []) ⟨[_],by decide,rfl⟩ trivial
  refine ⟨_,h₅,fun h => ?_⟩
  obtain ⟨sql,args,-,hprep⟩ := h.own true (.bind (some 2) 1 (.int 16) SQLITE_OK) (some 2)
    (by simp) rfl
  have hown : [some 1] = [some 2] := congrArg (List.map Prod.snd) hprep
  exact absurd hown (by decide)

end StatementMixing
end AlephSql
