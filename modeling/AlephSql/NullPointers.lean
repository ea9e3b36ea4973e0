import AlephSql.FailedCalls
import AlephSql.OneByOne

/-! Null pointers. A call of an object tests `M_sqlite_ptr` once and reads both members anew at
every API call, while other workers open, prepare and fail on the same object. -/
namespace AlephSql
namespace AsyncPool

open Transition Interleave Sqlite Database CallSteps Delivery SqlThread FailedCalls

/-- A prepare on a connection has left a null statement: it failed, or its text holds none. -/
def StoredNull (es : History) : Prop :=
  ∃ conn sql ret, Sqlite.Event.prepareV2 (some conn) sql ret none ∈ es

/-- No call is handed a null statement unless such a prepare came before it. -/
def StatementsStored (es : History) : Prop :=
  ∀ later e earlier, es = later ++ e :: earlier → e.stmt = some none → StoredNull earlier

/-- What an operation relies on, when the calls `es` have been made since the pool was new. -/
structure Ready (call : Call) (es : History) (ob : Object) (p : CallPc) : Prop where
  connection : p ≠ .start → (∀ o, p ≠ .done o) → ob.sqlitePtr ≠ none
  statement : usesStatement p = true → ob.sqliteStmt = none → StoredNull es
  unnamed : p = .done (.opened false) → ob.sqlitePtr = none → call = .openSqliteDatabase ""

/-- What the calls of others do to an object at most. -/
structure Moved (es es' : History) (ob ob' : Object) : Prop where
  later : es ⊆ es'
  opens : ob.sqlitePtr ≠ none → ob'.sqlitePtr ≠ none
  stores : ob'.sqliteStmt = none → ob.sqliteStmt = none ∨ StoredNull es'

section Calls

variable {call : Call} {es es' new : History} {ob ob' : Object} {p p' : CallPc}
  {e : Sqlite.Event}

theorem conn_of_stmt {s : Option StmtId} (h : e.stmt = some s) : e.conn = none := by
  cases e <;> first | rfl | cases h

theorem StoredNull.mono (h : StoredNull es) (hes : es ⊆ es') : StoredNull es' := by
  obtain ⟨conn,sql,ret,hmem⟩ := h
  exact ⟨conn,sql,ret,hes hmem⟩

theorem StatementsStored.cons (h : StatementsStored es) (he : e.stmt = some none → StoredNull es) :
    StatementsStored (e :: es) := by
  intro later x earlier heq hx
  cases later with
  | nil =>
    obtain ⟨rfl,rfl⟩ := List.cons.inj heq
    exact he hx
  | cons y later =>
    obtain ⟨-,rfl⟩ := List.cons.inj heq
    exact h later x earlier rfl hx

theorem Moved.refl (h : es ⊆ es') : Moved es es' ob ob := ⟨h,id,.inl⟩

theorem Ready.moved (h : Ready call es ob p) (hm : Moved es es' ob ob') :
    Ready call es' ob' p where
  connection hstart hdone := hm.opens (h.connection hstart hdone)
  statement huse hnull := by
    rcases hm.stores hnull with hnull | hstored
    · exact (h.statement huse hnull).mono hm.later
    · exact hstored
  unnamed hp hnull := h.unnamed hp (by_contra fun hne => hm.opens hne hnull)

theorem ready_start : Ready call es ob .start := ⟨by simp,by simp,by simp⟩

structure Goes (call : Call) (es new : History) (d d' : Db) (p' : CallPc) : Prop where
  calls : d'.calls = new ++ d.calls
  ready : Ready call (new ++ es) d'.self p'
  moved : Moved es (new ++ es) d.self d'.self
  connected : ∀ e ∈ new, e.conn ≠ some none
  stored : StatementsStored es → StatementsStored (new ++ es)

variable {d d' : Db}

theorem Goes.silent (h : Ready call es d.self p') : Goes call es [] d d p' :=
  ⟨rfl,h,.refl (List.Subset.refl _),by simp,id⟩

theorem Goes.logged (hr : Ready call es d.self p') (hconn : e.conn ≠ some none)
    (hstmt : e.stmt = some none → StoredNull es) : Goes call es [e] d (d.log e) p' :=
  ⟨rfl,hr.moved (.refl (List.subset_cons_self _ _)),.refl (List.subset_cons_self _ _),by simpa,
    fun hs => hs.cons hstmt⟩

variable {E : Engine}

theorem Goes.opened (hstores : OpenStores E) (name : String) (hp : usesStatement p' = false) :
    ∃ new, Goes call es new d (d.openV2 E name).2 p' := by
  have hopen : (d.openV2 E name).2.self.sqlitePtr ≠ none := hstores _ _
  refine ⟨[_],rfl,⟨fun _ _ => hopen,fun huse => ?_,fun _ hnull => absurd hnull hopen⟩,
    ⟨List.subset_cons_self _ _,fun _ => hopen,.inl⟩,?_,fun hs => hs.cons ?_⟩
  · rw [hp] at huse
    cases huse
  · simp [Sqlite.Event.conn]
  · simp [Sqlite.Event.stmt]

theorem Goes.prepared (sql : String) (hopen : d.self.sqlitePtr ≠ none) (hp : ∀ o, p' ≠ .done o) :
    ∃ new, Goes call es new d (d.prepareV2 E sql).2 p' := by
  set answer := E.prepareV2 d.calls d.self.sqlitePtr (cString sql) with hanswer
  have hnull : answer.2 = none →
      StoredNull (.prepareV2 d.self.sqlitePtr (cString sql) answer.1 answer.2 :: es) := by
    intro hnone
    obtain ⟨conn,hconn⟩ := Option.ne_none_iff_exists'.mp hopen
    rw [hconn,hnone]
    exact ⟨conn,_,_,List.mem_cons_self⟩
  refine ⟨[_],rfl,⟨fun _ _ => hopen,fun _ => hnull,fun hdone => absurd hdone (hp _)⟩,
    ⟨List.subset_cons_self _ _,fun _ => hopen,fun hnone => .inr (hnull hnone)⟩,?_,
    fun hs => hs.cons ?_⟩
  · simpa [Sqlite.Event.conn] using hopen
  · simp [Sqlite.Event.stmt]

theorem Ready.next (h : Ready call es ob p) (hstart : p ≠ .start) (hdone : ∀ o, p ≠ .done o)
    (hp : usesStatement p' = true → usesStatement p = true) : Ready call es ob p' :=
  ⟨fun _ _ => h.connection hstart hdone,fun huse => h.statement (hp huse),
    fun _ hnull => absurd hnull (h.connection hstart hdone)⟩

theorem Goes.asks (hr : Ready call es d.self p) (hstart : p ≠ .start) (hdone : ∀ o, p ≠ .done o)
    (hp : usesStatement p' = false) (hconn : e.conn = some d.self.sqlitePtr) :
    ∃ new, Goes call es new d (d.log e) p' := by
  refine ⟨[e],.logged (hr.next hstart hdone fun huse => ?_) ?_ fun hnull => ?_⟩
  · rw [hp] at huse
    cases huse
  · rw [hconn]
    simpa using hr.connection hstart hdone
  · rw [conn_of_stmt hnull] at hconn
    cases hconn

theorem Goes.uses (hr : Ready call es d.self p) (hp : usesStatement p = true)
    (hstmt : e.stmt = some d.self.sqliteStmt) : ∃ new, Goes call es new d (d.log e) p' := by
  refine ⟨[e],.logged (hr.next ?_ ?_ fun _ => hp) ?_ fun hnull => ?_⟩
  · rintro rfl
    cases hp
  · rintro o rfl
    cases hp
  · rw [conn_of_stmt hstmt]
    simp
  · exact hr.statement hp (Option.some.inj (hstmt.symm.trans hnull))

theorem goes_step (hstores : OpenStores E) (hr : Ready call es d.self p)
    (hstep : callStep E call d p = some (d',p')) : ∃ new, Goes call es new d d' p' := by
  cases p with
  | start =>
    cases call with
    | openSqliteDatabase name =>
      simp only [callStep] at hstep
      split at hstep
      · next hname =>
        cases hstep
        exact ⟨[],.silent ⟨by simp,by simp,fun _ _ => by rw [hname]⟩⟩
      · split at hstep <;> cases hstep <;> exact Goes.opened hstores name rfl
    | executeSqlite sql args | executeSqliteSelect sql args =>
      simp only [callStep] at hstep
      split at hstep
      · cases hstep
        exact ⟨[],.silent ⟨by simp,by simp,by simp⟩⟩
      · next hopen =>
        cases hstep
        exact ⟨[],.silent ⟨fun _ _ => hopen,by simp,by simp⟩⟩
  | prepare =>
    have hopen := hr.connection (by simp) (by simp)
    cases call with
    | openSqliteDatabase name => cases hstep
    | executeSqlite sql args | executeSqliteSelect sql args =>
      simp only [callStep] at hstep
      split at hstep <;> cases hstep <;> exact Goes.prepared sql hopen (by simp)
  | compileErrmsg ret =>
    cases call <;> cases hstep <;> exact Goes.asks hr (by simp) (by simp) rfl rfl
  | bind index rest =>
    cases rest with
    | nil =>
      cases call <;> cases hstep <;>
        exact ⟨[],.silent (hr.next (by simp) (by simp) fun _ => rfl)⟩
    | cons q rest =>
      cases hstep
      exact Goes.uses hr rfl rfl
  | executeStep | selectStep count rows =>
    simp only [callStep] at hstep
    split at hstep <;> cases hstep <;> exact Goes.uses hr rfl rfl
  | columnCount =>
    cases hstep
    exact Goes.uses hr rfl rfl
  | columnText count rows remaining index row =>
    cases remaining with
    | zero =>
      cases hstep
      exact ⟨[],.silent (hr.next (by simp) (by simp) fun _ => rfl)⟩
    | succ k =>
      cases hstep
      exact Goes.uses hr rfl rfl
  | openErrmsg | changes | stepErrmsg =>
    cases hstep
    exact Goes.asks hr (by simp) (by simp) rfl rfl
  | done outcome => cases hstep

end Calls

section Using

variable {O K : Type}

/-- A called function; or a callback in a synchronous call of its own, at `p`. -/
inductive UsingBody (O K : Type)
  | plain (b : Body O K)
  | sync (k : Completion K) (o : O) (call : Call) (p : CallPc)

/-- What the pool sees of it. -/
def UsingBody.body : UsingBody O K → Body O K
  | .plain b => b
  | .sync k _ _ _ => .inside k

variable [DecidableEq O]

/-- The actions inside the tasks when callbacks call the objects' synchronous functions. Their API
calls interleave with those of the other workers as an operation's do. -/
inductive UsingAct (E : Engine) :
    UsingBody O K → Data O K → UsingBody O K → Data O K → Prop
  | plain (b b' d d') (h : Act E (fun _ _ => False) b d b' d') :
      UsingAct E (.plain b) d (.plain b') d'
  | calls (k o call d) : UsingAct E (.plain (.inside k)) d (.sync k o call .start) d
  | api (k o call p p' d) (db : Db) (h : callStep E call ⟨d.objects o,d.calls⟩ p = some (db,p')) :
      UsingAct E (.sync k o call p) d (.sync k o call p') (d.after o db)
  | returns (k o call out d) : UsingAct E (.sync k o call (.done out)) d (.plain (.inside k)) d

/-- Callbacks post and return between their synchronous calls. -/
def usingCalls (E : Engine) (R : Residue) : Calls (Work O K) (UsingBody O K) (Data O K) where
  call t := .plain (called t)
  act := UsingAct E
  post b x b' := ∃ a a', b = .plain a ∧ b' = .plain a' ∧ Posts R a x a'
  returned b := ∃ a, b = .plain a ∧ Returns a

abbrev usingPool (E : Engine) (R : Residue) (m n : ℕ) (objects : O → Object) (calls : History) :
    Threads (Thread m n) (Shared m n (Work O K) (Data O K)) (Point (Work O K) (UsingBody O K)) :=
  pool (usingCalls E R) m n (fresh objects calls)

abbrev UsingState (m n : ℕ) (O K : Type) := State m n (Work O K) (UsingBody O K) (Data O K)

/-- Threads outside the pool submit operations, and nothing else. -/
def UsingSubmits {m n : ℕ} : Guard (Thread m n) (Shared m n (Work O K) (Data O K))
    (Point (Work O K) (UsingBody O K)) := fun _ i d =>
  ∀ j x, i = .poster j → d.pc i = .posting none (.lock x) → ∃ s, x = .operation s

variable {E : Engine} {R : Residue}

theorem Act.mono {behaves behaves' : Behaviour O} (hb : ∀ w w', behaves w w' → behaves' w w')
    {b b' : Body O K} {d d' : Data O K} (h : Act E behaves b d b' d') :
    Act E behaves' b d b' d' := by
  cases h with
  | callback k _ objects calls h => exact .callback k _ _ _ (hb _ _ h)
  | api x p p' _ db h => exact .api x p p' _ db h
  | _ => constructor

/-- Callbacks that use the objects are callbacks. -/
theorem using_seenAs :
    SeenAs UsingBody.body (usingCalls E R : Calls (Work O K) _ _)
      (asyncCalls E R fun _ _ => True) where
  call _ := rfl
  act h := by
    cases h with
    | plain b b' _ _ h => exact h.mono fun _ _ h => h.elim
    | calls k o call _ => exact .callback k _ _ _ trivial
    | api k o call p p' _ db h => exact .callback k _ _ _ trivial
    | returns k o call out _ => exact .callback k _ _ _ trivial
  post h := by
    obtain ⟨a,a',rfl,rfl,hpost⟩ := h
    exact hpost
  returned h := by
    obtain ⟨a,rfl,hret⟩ := h
    exact hret

theorem plain_seenAs :
    SeenAs UsingBody.plain (asyncCalls E R fun _ _ => False) (usingCalls E R : Calls (Work O K) _ _)
    where
  call _ := rfl
  act h := .plain _ _ _ _ h
  post h := ⟨_,_,rfl,rfl,h⟩
  returned h := ⟨_,rfl,h⟩

end Using

section Run

variable {O K : Type} [DecidableEq O] {m n : ℕ} {E : Engine} {R : Residue} {objects : O → Object}
  {calls es es' new : History}

def BodyReady (es : History) (objects : O → Object) : Body O K → Prop
  | .calling x p => Ready x.call es (objects x.self) p
  | .returned x (.opened false) =>
    (objects x.self).sqlitePtr = none → x.call = .openSqliteDatabase ""
  | _ => True

def UsingReady (es : History) (objects : O → Object) : UsingBody O K → Prop
  | .plain b => BodyReady es objects b
  | .sync _ o call p => Ready call es (objects o) p

/-- The one call that is handed a null connection: an asynchronous open of the empty name has
failed and asks for the message of a connection that was never opened. -/
def AsksUnnamed (performed : List (Operation O K × Outcome)) (e : Sqlite.Event) : Prop :=
  (∃ text, e = .errmsg none text) ∧
    ∃ x, (x,.opened false) ∈ performed ∧ x.call = .openSqliteDatabase ""

/-- The calls `es` have been made on the objects, and nobody holds a null pointer unawares. -/
structure Guarded (objects : O → Object) (calls es : History) (d : Data O K) : Prop where
  calls : d.calls = es ++ calls
  opens : ∀ o, (objects o).sqlitePtr ≠ none → (d.objects o).sqlitePtr ≠ none
  connected : ∀ e ∈ es, e.conn = some none → AsksUnnamed d.performed e
  stored : StatementsStored es

omit [DecidableEq O] in
theorem BodyReady.moved {b : Body O K} {f f' : O → Object} (h : BodyReady es f b)
    (hm : ∀ o, Moved es es' (f o) (f' o)) : BodyReady es' f' b := by
  cases b with
  | calling x p => exact Ready.moved h (hm x.self)
  | returned x out =>
    cases out with
    | opened success =>
      cases success with
      | false => exact fun hnull => h (by_contra fun hne => (hm x.self).opens hne hnull)
      | true => trivial
    | executed r => trivial
  | _ => trivial

omit [DecidableEq O] in
theorem UsingReady.moved {b : UsingBody O K} {f f' : O → Object} (h : UsingReady es f b)
    (hm : ∀ o, Moved es es' (f o) (f' o)) : UsingReady es' f' b := by
  cases b with
  | plain b => exact BodyReady.moved h hm
  | sync k o call p => exact Ready.moved h (hm o)

theorem moved_update {f : O → Object} {o : O} {ob : Object}
    (h : Moved es (new ++ es) (f o) ob) (j : O) :
    Moved es (new ++ es) (f j) (Function.update f o ob j) := by
  by_cases hj : j = o
  · subst hj
    simpa using h
  · simpa [hj] using Moved.refl h.later

omit [DecidableEq O] in
theorem AsksUnnamed.mono {l l' : List (Operation O K × Outcome)} {e : Sqlite.Event}
    (h : AsksUnnamed l e) (hl : l ⊆ l') : AsksUnnamed l' e := by
  obtain ⟨htext,x,hx,hcall⟩ := h
  exact ⟨htext,x,hl hx,hcall⟩

theorem Guarded.goes {d d' : Data O K} {o : O} {call : Call} {db : Db} {p : CallPc}
    (h : Guarded objects calls es d) (hgo : Goes call es new ⟨d.objects o,d.calls⟩ db p)
    (hobjects : d'.objects = Function.update d.objects o db.self) (hcalls : d'.calls = db.calls)
    (hperformed : d'.performed = d.performed) : Guarded objects calls (new ++ es) d' where
  calls := by rw [hcalls,hgo.calls,h.calls,List.append_assoc]
  opens j hj := by
    rw [hobjects]
    exact (moved_update (f := d.objects) hgo.moved j).opens (h.opens j hj)
  connected e he hnull := by
    rw [hperformed]
    rcases List.mem_append.mp he with he | he
    · exact absurd hnull (hgo.connected e he)
    · exact h.connected e he hnull
  stored := hgo.stored h.stored

theorem guarded_act (hstores : OpenStores E) {b b' : Body O K} {d d' : Data O K}
    {t : SqlThread.Task (Work O K)} (h : Act E (fun _ _ => False) b d b' d')
    (hd : Guarded objects calls es d) (hb : BodyReady es d.objects b) (ht : Proper d t b) :
    ∃ new, Guarded objects calls (new ++ es) d' ∧ BodyReady (new ++ es) d'.objects b' ∧
      ∀ o, Moved es (new ++ es) (d.objects o) (d'.objects o) := by
  have hstay : ∀ o, Moved es es (d.objects o) (d.objects o) := fun o =>
    .refl (List.Subset.refl _)
  cases h with
  | enter x d => exact ⟨[],⟨hd.calls,hd.opens,hd.connected,hd.stored⟩,ready_start,hstay⟩
  | api x q q' d db h =>
    obtain ⟨new,hgo⟩ := goes_step (d := ⟨d.objects x.self,d.calls⟩) hstores hb h
    refine ⟨new,hd.goes hgo rfl rfl rfl,?_,moved_update (f := d.objects) hgo.moved⟩
    simpa [BodyReady,Data.after] using hgo.ready
  | callReturns x out d =>
    refine ⟨[],⟨hd.calls,hd.opens,fun e he hnull => ?_,hd.stored⟩,?_,hstay⟩
    · exact (hd.connected e he hnull).mono (List.subset_append_left _ _)
    · cases out with
      | opened success =>
        cases success with
        | false => exact Ready.unnamed hb rfl
        | true => trivial
      | executed r => trivial
  | openErrmsg x d =>
    set text := E.errmsg d.calls (d.objects x.self).sqlitePtr
    have hmoved : Moved es ([.errmsg (d.objects x.self).sqlitePtr text] ++ es) (d.objects x.self)
        (d.objects x.self) := .refl (List.subset_cons_self _ _)
    refine ⟨[.errmsg (d.objects x.self).sqlitePtr text],⟨?_,fun o ho => ?_,fun e he hnull => ?_,
      hd.stored.cons (by simp [Sqlite.Event.stmt])⟩,trivial,moved_update (f := d.objects) hmoved⟩
    · exact congrArg (_ :: ·) hd.calls
    · exact (moved_update (f := d.objects) hmoved o).opens (hd.opens o ho)
    · rcases List.mem_cons.mp he with rfl | he
      · have hptr : (d.objects x.self).sqlitePtr = none := Option.some.inj hnull
        rw [hptr]
        exact ⟨⟨text,rfl⟩,x,ht.2,hb hptr⟩
      · exact hd.connected e he hnull
  | invoke k d => exact ⟨[],⟨hd.calls,hd.opens,hd.connected,hd.stored⟩,trivial,hstay⟩
  | callback k d obs hist h => exact h.elim

theorem guarded_using (hstores : OpenStores E) {b b' : UsingBody O K} {d d' : Data O K}
    {t : SqlThread.Task (Work O K)} (h : UsingAct E b d b' d') (hd : Guarded objects calls es d)
    (hb : UsingReady es d.objects b) (ht : Proper d t b.body) :
    ∃ new, Guarded objects calls (new ++ es) d' ∧ UsingReady (new ++ es) d'.objects b' ∧
      ∀ o, Moved es (new ++ es) (d.objects o) (d'.objects o) := by
  have hstay : ∀ o, Moved es es (d.objects o) (d.objects o) := fun o =>
    .refl (List.Subset.refl _)
  cases h with
  | plain b b' d d' h => exact guarded_act hstores h hd hb ht
  | calls k o call d => exact ⟨[],hd,ready_start,hstay⟩
  | api k o call p p' d db h =>
    obtain ⟨new,hgo⟩ := goes_step (d := ⟨d.objects o,d.calls⟩) hstores hb h
    refine ⟨new,hd.goes hgo rfl rfl rfl,?_,moved_update (f := d.objects) hgo.moved⟩
    simpa [UsingReady,Data.after] using hgo.ready
  | returns k o call out d => exact ⟨[],hd,trivial,hstay⟩

/-- Outside the functions called the data stay as they are, and a call comes out of such a step
where it was, or where it relies on nothing. -/
theorem step_body (es : History) {i : Thread m n}
    {s s' : Shared m n (Work O K) (Data O K)} {p p' : Point (Work O K) (UsingBody O K)}
    (h : Step (usingCalls E R) i s p s' p') :
    (∃ t b b', p = .running t b ∧ p' = .running t b' ∧ UsingAct E b s.data b' s'.data) ∨
      s'.data = s.data ∧ ∀ t b', callAt p' = some (t,b') →
        callAt p = some (t,b') ∨ UsingReady es s.data.objects b' := by
  cases h with
  | act w s t b b' d' h => exact .inl ⟨t,b,b',rfl,rfl,h⟩
  | taskPosts w s t b x b' h =>
    obtain ⟨a,a',rfl,rfl,hpost⟩ := h
    refine .inr ⟨rfl,?_⟩
    rintro u b'' ⟨⟩
    cases hpost <;> exact .inr trivial
  | taken w s t =>
    refine .inr ⟨rfl,?_⟩
    rintro u b'' ⟨⟩
    obtain ⟨i,work⟩ := t
    cases work <;> exact .inr trivial
  | returnToTask i s t b => exact .inr ⟨rfl,fun _ _ h => .inl h⟩
  | postLock i s k | postCount i s k | postPush i s k | postUnlock i s k | postNotifyNobody i s k
  | postNotifyOne i s k => exact .inr ⟨rfl,fun _ _ h => .inl h⟩
  | _ => exact .inr ⟨rfl,fun _ _ h => by cases h⟩

variable {c : UsingState m n O K}

theorem using_proper
    (hc : Reach (usingPool E R m n objects calls).lts UsingSubmits c) {i : Thread m n}
    {t : SqlThread.Task (Work O K)} {b : UsingBody O K} (hi : c.pc i = .running t b) :
    Proper c.shared.data t b.body := by
  have hseen : Reach (asyncPool E R (fun _ _ => True) m n objects calls).lts Submits
      (mapState UsingBody.body c) :=
    using_seenAs.reach (fun _ _ _ hok j x hi hx => hok j x hi (Point.map_lock.mp hx)) hc
  exact (told (fun h => h) hseen i).proper t b.body (by simp only [mapState,hi]; rfl)

theorem guarded (hstores : OpenStores E)
    (hc : Reach (usingPool E R m n objects calls).lts UsingSubmits c) :
    ∃ es, Guarded objects calls es c.shared.data ∧
      ∀ i t b, callAt (c.pc i) = some (t,b) → UsingReady es c.shared.data.objects b := by
  refine hc.invariant (I := fun c => ∃ es, Guarded objects calls es c.shared.data ∧
    ∀ i t b, callAt (c.pc i) = some (t,b) → UsingReady es c.shared.data.objects b) ?_ ?_
  · rintro ⟨s,pc⟩ ⟨rfl,rfl⟩
    refine ⟨[],⟨rfl,fun _ h => h,by simp,fun later e earlier h => by simp at h⟩,?_⟩
    intro i t b h
    cases i <;> cases h
  · rintro c i d hc ⟨es,hdata,hready⟩ hok ⟨hstep,hframe⟩
    rcases step_body es hstep with ⟨t,b,b',hp,hp',hact⟩ | ⟨hsame,hcall⟩
    · obtain ⟨new,hdata',hbody,hmoved⟩ := guarded_using hstores hact hdata
        (hready i t b (by rw [hp]; rfl)) (using_proper hc hp)
      refine ⟨new ++ es,hdata',fun j u q hq => ?_⟩
      by_cases hj : j = i
      · subst hj
        rw [hp'] at hq
        cases hq
        exact hbody
      · rw [hframe j hj] at hq
        exact (hready j u q hq).moved hmoved
    · rw [hsame]
      refine ⟨es,hdata,fun j u q hq => ?_⟩
      by_cases hj : j = i
      · subst hj
        rcases hcall u q hq with hold | hquiet
        · exact hready j u q hold
        · exact hquiet
      · rw [hframe j hj] at hq
        exact hready j u q hq

end Run

theorem null_pointers_known {O K : Type} [DecidableEq O] (E : Engine) (hstores : OpenStores E)
    (R : Residue) (m n : ℕ) (objects : O → Object) (calls : History) (c : UsingState m n O K)
    (hc : Reach (usingPool E R m n objects calls).lts UsingSubmits c) :
    ∃ es, c.shared.data.calls = es ++ calls ∧
      (∀ o, (objects o).sqlitePtr ≠ none → (c.shared.data.objects o).sqlitePtr ≠ none) ∧
      (∀ e ∈ es, e.conn = some none → AsksUnnamed c.shared.data.performed e) ∧
      StatementsStored es := by
  obtain ⟨es,h,-⟩ := guarded hstores hc
  exact ⟨es,h.calls,h.opens,h.connected,h.stored⟩

def openUnnamed : Operation Unit Unit := ⟨⟨(),.openSqliteDatabase "",()⟩,0⟩

theorem null_pointers_known_unnamed : ∃ (c : UsingState 1 1 Unit Unit) (text : String),
    c.shared.data.calls = [.errmsg none text,.config] ∧
    ∃ es, c.shared.data.calls = es ++ [.config] ∧
      (∀ o : Unit, ({} : Object).sqlitePtr ≠ none → (c.shared.data.objects o).sqlitePtr ≠ none) ∧
      (∀ e ∈ es, e.conn = some none → AsksUnnamed c.shared.data.performed e) ∧
      StatementsStored es := by
  obtain ⟨c,hbegun⟩ := first_begun sampleEngine ⟨id,id⟩ (fun _ _ => False) (fun _ => {})
    [.config] openUnnamed.toSubmission
  have hopen := disciplined_next hbegun
    (Step.act 0 _ _ _ _ _ (Act.api openUnnamed _ (.done (.opened false)) _ _ rfl)) (by simp)
  have hreturn := disciplined_next hopen
    (Step.act 0 _ _ _ _ _ (Act.callReturns openUnnamed _ _)) (by simp)
  have hask := disciplined_next hreturn
    (Step.act 0 _ _ _ _ _ (Act.openErrmsg openUnnamed _)) (by simp)
  have hstores : OpenStores sampleEngine := fun _ _ => by simp [sampleEngine]
  have hplain : Reach (usingPool sampleEngine ⟨id,id⟩ 1 1 (fun _ => {}) [.config]).lts
      UsingSubmits _ :=
    plain_seenAs.reach (fun _ _ _ hok j x hi hx => hok.1 j x hi (Point.map_lock.mp hx)) hask
  exact ⟨_,_,rfl,null_pointers_known sampleEngine hstores ⟨id,id⟩ 1 1 (fun _ => {}) [.config] _
    hplain⟩

end AsyncPool
end AlephSql
