import AlephSql.CallSteps
import AlephSql.Custody
import AlephSql.Transition

/-! The raw handles over whole programs: any number of objects are constructed, opened,
executed on, moved and destroyed in any order. Connections and statements are two kinds of
resources in the custody of the objects that hold them. -/
namespace AlephSql
namespace Handles

open Sqlite Database CallSteps Transition Custody

variable {O : Type} [DecidableEq O] {E : Engine}

structure World (O : Type) where
  objects : O → Option Object
  calls : History

inductive Action (O : Type)
  | construct (i : O)
  | call (i : O) (c : Call)
  | moveConstruct (i source : O)
  | moveAssign (i source : O)
  | destroy (i : O)

/-- The world after object `i` has become `d.self`. -/
def World.put (w : World O) (i : O) (d : Db) : World O :=
  ⟨Function.update w.objects i (some d.self),d.calls⟩

inductive Step (E : Engine) : World O → Action O → World O → Prop
  | construct (w : World O) (i : O) (new : w.objects i = none) :
      Step E w (.construct i) (w.put i (construct w.calls))
  | call (w : World O) (i : O) (o : Object) (c : Call) (fuel : ℕ) (out : Outcome) (d : Db)
      (live : w.objects i = some o) (runs : runCall E fuel ⟨o,w.calls⟩ c = some (out,d)) :
      Step E w (.call i c) (w.put i d)
  | moveConstruct (w : World O) (i j : O) (o : Object) (new : w.objects i = none)
      (live : w.objects j = some o) :
      Step E w (.moveConstruct i j) (w.put i ⟨moveConstruct o,w.calls⟩)
  | moveAssignSelf (w : World O) (i : O) (o : Object) (live : w.objects i = some o) :
      Step E w (.moveAssign i i) w
  | moveAssign (w : World O) (i j : O) (o source : Object) (other : i ≠ j)
      (live : w.objects i = some o) (from_live : w.objects j = some source) :
      Step E w (.moveAssign i j)
        ((w.put i ⟨(moveAssign source).1,w.calls⟩).put j ⟨(moveAssign source).2,w.calls⟩)
  | destroy (w : World O) (i : O) (o : Object) (live : w.objects i = some o) :
      Step E w (.destroy i) ⟨Function.update w.objects i none,destroy E ⟨o,w.calls⟩⟩

/-- Programs over the objects `O`. -/
def world (E : Engine) (O : Type) [DecidableEq O] : Lts (World O) (Action O) where
  init w := w = ⟨fun _ => none,[]⟩
  step := Step E

def World.ptr (w : World O) (i : O) : Option ConnId := (w.objects i).bind Object.sqlitePtr

def World.stmt (w : World O) (i : O) : Option StmtId := (w.objects i).bind Object.sqliteStmt

/-- What a call does to a connection. -/
def connEvent : Sqlite.Event → Option (Custody.Event ConnId)
  | .openV2 _ _ out => out.map .acquire
  | .prepareV2 conn _ _ _ | .changes conn _ | .errmsg conn _ => conn.map .use
  | .close conn ret => conn.map (if ret = SQLITE_OK then .release else .use)
  | _ => none

def stmtEvent : Sqlite.Event → Option (Custody.Event StmtId)
  | .prepareV2 _ _ _ out => out.map .acquire
  | .bind stmt _ _ _ | .columnCount stmt _ | .step stmt _ | .columnText stmt _ _ => stmt.map .use
  | .finalize stmt => stmt.map .release
  | _ => none

def connLog (h : History) : Log ConnId := h.filterMap connEvent

def stmtLog (h : History) : Log StmtId := h.filterMap stmtEvent

section Logs

variable {α : Type}

theorem acquired_toList (x : Option (Custody.Event α)) (log : Log α) :
    acquired (x.toList ++ log) = acquired x.toList ++ acquired log := by
  cases x with
  | none => rfl
  | some e => cases e <;> rfl

theorem released_toList (x : Option (Custody.Event α)) (log : Log α) :
    released (x.toList ++ log) = released x.toList ++ released log := by
  cases x with
  | none => rfl
  | some e => cases e <;> rfl

theorem acquired_filterMap {f : Sqlite.Event → Option (Custody.Event α)}
    {g : Sqlite.Event → Option α} (hfg : ∀ e, acquired (f e).toList = (g e).toList)
    (h : History) : acquired (h.filterMap f) = h.filterMap g := by
  induction h with
  | nil => rfl
  | cons e h ih =>
    rw [filterMap_cons_toList,acquired_toList,hfg,ih,← filterMap_cons_toList]

theorem released_filterMap {f : Sqlite.Event → Option (Custody.Event α)}
    {g : Sqlite.Event → Option α} (hfg : ∀ e, released (f e).toList = (g e).toList)
    (h : History) : released (h.filterMap f) = h.filterMap g := by
  induction h with
  | nil => rfl
  | cons e h ih =>
    rw [filterMap_cons_toList,released_toList,hfg,ih,← filterMap_cons_toList]

theorem connLog_cons (e : Sqlite.Event) (h : History) :
    connLog (e :: h) = (connEvent e).toList ++ connLog h := filterMap_cons_toList _ _ _

theorem stmtLog_cons (e : Sqlite.Event) (h : History) :
    stmtLog (e :: h) = (stmtEvent e).toList ++ stmtLog h := filterMap_cons_toList _ _ _

@[simp] theorem acquired_connLog (h : History) : acquired (connLog h) = opened h := by
  apply acquired_filterMap
  intro e
  cases e with
  | openV2 name ret out => cases out <;> rfl
  | prepareV2 conn | changes conn | errmsg conn => cases conn <;> rfl
  | close conn ret =>
    cases conn with
    | none => rfl
    | some c => by_cases hret : ret = SQLITE_OK <;> simp [connEvent,hret] <;> rfl
  | _ => rfl

@[simp] theorem released_connLog (h : History) : released (connLog h) = closed h := by
  apply released_filterMap
  intro e
  cases e with
  | openV2 name ret out => cases out <;> rfl
  | prepareV2 conn | changes conn | errmsg conn => cases conn <;> rfl
  | close conn ret =>
    cases conn <;> by_cases hret : ret = SQLITE_OK <;>
      simp [connEvent,Sqlite.Event.closes,hret,released]
  | _ => rfl

@[simp] theorem acquired_stmtLog (h : History) :
    acquired (stmtLog h) = (prepared h).map Prod.fst := by
  rw [prepared,List.map_filterMap]
  apply acquired_filterMap
  intro e
  cases e with
  | prepareV2 conn sql ret out => cases out <;> rfl
  | bind stmt | columnCount stmt | step stmt | columnText stmt | finalize stmt =>
    cases stmt <;> rfl
  | _ => rfl

@[simp] theorem released_stmtLog (h : History) : released (stmtLog h) = finalized h := by
  apply released_filterMap
  intro e
  cases e with
  | prepareV2 conn sql ret out => cases out <;> rfl
  | bind stmt | columnCount stmt | step stmt | columnText stmt | finalize stmt =>
    cases stmt <;> rfl
  | _ => rfl

end Logs

/-- Connections and statements have at most one holder each and are used only while live. -/
structure Owned (w : World O) : Prop where
  conns : Sound w.ptr (connLog w.calls)
  stmts : Sound w.stmt (stmtLog w.calls)

section Put

variable {w : World O} {i : O} {d d' : Db}

@[simp] theorem put_calls : (w.put i d).calls = d.calls := rfl

@[simp] theorem ptr_put : (w.put i d).ptr = Function.update w.ptr i d.self.sqlitePtr := by
  funext j
  by_cases hj : j = i
  · subst hj
    simp [World.ptr,World.put]
  · simp [World.ptr,World.put,hj]

@[simp] theorem stmt_put : (w.put i d).stmt = Function.update w.stmt i d.self.sqliteStmt := by
  funext j
  by_cases hj : j = i
  · subst hj
    simp [World.stmt,World.put]
  · simp [World.stmt,World.put,hj]

theorem put_live {o : Object} (h : w.objects i = some o) : w.put i ⟨o,w.calls⟩ = w := by
  simp [World.put,← h]

end Put

section Ticks

variable {w : World O} {i : O} {call : Call} {d d' : Db} {p p' : CallPc}

theorem connEvent_of_stmt {e : Sqlite.Event} {x : Option StmtId} (h : e.stmt = some x) :
    connEvent e = none ∧ stmtEvent e = x.map .use := by
  cases e <;> simp_all [Sqlite.Event.stmt,connEvent,stmtEvent]

theorem connEvent_of_conn {e : Sqlite.Event} {x : Option ConnId} (h : e.conn = some x)
    (hp : e.isPrepare = false) : connEvent e = x.map .use ∧ stmtEvent e = none := by
  cases e <;> simp_all [Sqlite.Event.conn,Sqlite.Event.isPrepare,connEvent,stmtEvent]

theorem Owned.useConn (h : Owned (w.put i d)) {e : Sqlite.Event}
    (hc : connEvent e = d.self.sqlitePtr.map .use) (hs : stmtEvent e = none) :
    Owned (w.put i (d.log e)) := by
  have huse := h.conns.useNullable i
  simp only [ptr_put,Function.update_self,put_calls] at huse
  refine ⟨?_,?_⟩
  · simp only [ptr_put,put_calls,Db.log,connLog_cons,hc]
    exact huse
  · simp only [stmt_put,put_calls,Db.log,stmtLog_cons,hs]
    simpa using h.stmts

theorem Owned.useStmt (h : Owned (w.put i d)) {e : Sqlite.Event}
    (hc : connEvent e = none) (hs : stmtEvent e = d.self.sqliteStmt.map .use) :
    Owned (w.put i (d.log e)) := by
  have huse := h.stmts.useNullable i
  simp only [stmt_put,Function.update_self,put_calls] at huse
  refine ⟨?_,?_⟩
  · simp only [ptr_put,put_calls,Db.log,connLog_cons,hc]
    simpa using h.conns
  · simp only [stmt_put,put_calls,Db.log,stmtLog_cons,hs]
    exact huse

theorem Owned.openV2 (hfresh : OpenFresh E) (h : Owned (w.put i d)) (name : String) :
    Owned (w.put i (d.openV2 E name).2) := by
  have hnew := h.conns.acquireNullable i (x := (E.openV2 d.calls (cString name)).2)
    (by simpa using hfresh d.calls (cString name))
  simp only [ptr_put,Function.update_idem,put_calls] at hnew
  refine ⟨?_,?_⟩
  · simp only [ptr_put,put_calls,Db.openV2,connLog_cons]
    exact hnew
  · simp only [stmt_put,put_calls,Db.openV2,stmtLog_cons]
    simpa [stmtEvent] using h.stmts

theorem Owned.prepareV2 (hfresh : PrepareFresh E) (h : Owned (w.put i d)) (sql : String) :
    Owned (w.put i (d.prepareV2 E sql).2) := by
  have huse := h.conns.useNullable i
  simp only [ptr_put,Function.update_self,put_calls] at huse
  have hnew := h.stmts.acquireNullable i
    (x := (E.prepareV2 d.calls d.self.sqlitePtr (cString sql)).2)
    (by simpa using hfresh d.calls d.self.sqlitePtr (cString sql))
  simp only [stmt_put,Function.update_idem,put_calls] at hnew
  refine ⟨?_,?_⟩
  · simp only [ptr_put,put_calls,Db.prepareV2,connLog_cons]
    exact huse
  · simp only [stmt_put,put_calls,Db.prepareV2,stmtLog_cons]
    exact hnew

theorem owned_tick (hopen : OpenFresh E) (hprepare : PrepareFresh E) (h : Owned (w.put i d))
    (hstep : callStep E call d p = some (d',p')) : Owned (w.put i d') := by
  rcases callStep_effect hstep with ⟨rfl,-⟩ | ⟨name,-,-,-,rfl,-⟩ | ⟨sql,args,-,-,rfl,-⟩ |
    ⟨e,hstmt,rfl,-⟩ | ⟨e,hconn,rfl,hquiet,-,-⟩
  · exact h
  · exact h.openV2 hopen name
  · exact h.prepareV2 hprepare sql
  · obtain ⟨hc,hs⟩ := connEvent_of_stmt hstmt
    exact h.useStmt hc hs
  · obtain ⟨hc,hs⟩ := connEvent_of_conn hconn hquiet
    exact h.useConn hc hs

theorem owned_runCall (hopen : OpenFresh E) (hprepare : PrepareFresh E) {fuel : ℕ}
    {out : Outcome} (h : Owned (w.put i d)) (hrun : runCall E fuel d call = some (out,d')) :
    Owned (w.put i d') :=
  (ticks_of_runCall hrun).invariant (I := fun d _ => Owned (w.put i d))
    (fun hd hstep => owned_tick hopen hprepare hd hstep) h

end Ticks

section World

variable {w w' : World O} {i : O} {h : History}

@[simp] theorem ptr_destroyed :
    World.ptr ⟨Function.update w.objects i none,h⟩ = Function.update w.ptr i none := by
  funext j
  by_cases hj : j = i
  · subst hj
    simp [World.ptr]
  · simp [World.ptr,hj]

@[simp] theorem stmt_destroyed :
    World.stmt ⟨Function.update w.objects i none,h⟩ = Function.update w.stmt i none := by
  funext j
  by_cases hj : j = i
  · subst hj
    simp [World.stmt]
  · simp [World.stmt,hj]

/-- The connections after a destructor: its own is closed, or let go of when the close fails. -/
theorem connLog_destroy (o : Object) :
    connLog (destroy E ⟨o,h⟩) =
      if E.close (.finalize o.sqliteStmt :: h) o.sqlitePtr = SQLITE_OK then
        nullable .release o.sqlitePtr (connLog h)
      else nullable .use o.sqlitePtr (connLog h) := by
  by_cases hret : E.close (.finalize o.sqliteStmt :: h) o.sqlitePtr = SQLITE_OK <;>
    simp [destroy,Db.log,connLog_cons,connEvent,hret,nullable]

theorem stmtLog_destroy (o : Object) :
    stmtLog (destroy E ⟨o,h⟩) = nullable .release o.sqliteStmt (stmtLog h) := by
  simp [destroy,Db.log,stmtLog_cons,stmtEvent,nullable]

theorem owned_destroy (hw : Owned w) {o : Object} (hi : w.objects i = some o) :
    Owned ⟨Function.update w.objects i none,destroy E ⟨o,w.calls⟩⟩ := by
  have hptr : w.ptr i = o.sqlitePtr := by simp [World.ptr,hi]
  have hstmt : w.stmt i = o.sqliteStmt := by simp [World.stmt,hi]
  constructor
  · rw [ptr_destroyed,connLog_destroy,← hptr]
    split
    · exact hw.conns.releaseNullable i
    · exact (hw.conns.useNullable i).drop i
  · rw [stmt_destroyed,stmtLog_destroy,← hstmt]
    exact hw.stmts.releaseNullable i

theorem owned_moveAssign (hw : Owned w) {j : O} {source : Object}
    (hj : w.objects j = some source) :
    Owned ((w.put i ⟨(moveAssign source).1,w.calls⟩).put j ⟨(moveAssign source).2,w.calls⟩) := by
  have hptr : w.ptr j = source.sqlitePtr := by simp [World.ptr,hj]
  have hstmt : w.stmt j = source.sqliteStmt := by simp [World.stmt,hj]
  constructor
  · simpa [moveAssign,hptr] using hw.conns.transfer i j
  · simpa [moveAssign,hstmt] using hw.stmts.transfer i j

/-- Move construction only from objects that hold no handle. -/
def MovesEmpty : World O → Action O → World O → Prop := fun w a _ =>
  ∀ i j, a = .moveConstruct i j → w.ptr j = none ∧ w.stmt j = none

theorem owned_step (hopen : OpenFresh E) (hprepare : PrepareFresh E) {a : Action O}
    (hok : MovesEmpty w a w') (h : Step E w a w') (hw : Owned w) : Owned w' := by
  cases h with
  | construct i new =>
    constructor
    · simpa [construct,connLog_cons,connEvent] using hw.conns.drop i
    · simpa [construct,stmtLog_cons,stmtEvent] using hw.stmts.drop i
  | call i o c fuel out d live runs =>
    exact owned_runCall hopen hprepare ((put_live live).symm ▸ hw) runs
  | moveConstruct i j o new live =>
    obtain ⟨hptr,hstmt⟩ := hok i j rfl
    simp only [World.ptr,World.stmt,live,Option.bind_some] at hptr hstmt
    constructor
    · simpa [moveConstruct,hptr] using hw.conns.drop i
    · simpa [moveConstruct,hstmt] using hw.stmts.drop i
  | moveAssignSelf i o live => exact hw
  | moveAssign i j o source other live from_live => exact owned_moveAssign hw from_live
  | destroy i o live => exact owned_destroy hw live

theorem owned (hopen : OpenFresh E) (hprepare : PrepareFresh E)
    (hw : Reach (world E O) MovesEmpty w) : Owned w := by
  refine hw.invariant (I := Owned) ?_ fun _ hi hok h => owned_step hopen hprepare hok h hi
  rintro w rfl
  exact ⟨sound_nil,sound_nil⟩

end World

/-- No handle has two owners, and none is used or released after its release. -/
structure SoleOwner (w : World O) : Prop where
  conns : ∀ i j c, w.ptr i = some c → w.ptr j = some c → i = j
  stmts : ∀ i j s, w.stmt i = some s → w.stmt j = some s → i = j
  connsSafe : Safe (connLog w.calls)
  stmtsSafe : Safe (stmtLog w.calls)

/-- Handles have one owner in programs whose move constructions start from empty objects; a
move construction from an object that holds a handle gives it a second owner at once. -/
theorem handles_have_one_owner (E : Engine) (hopen : OpenFresh E) (hprepare : PrepareFresh E) :
    (∀ w : World O, Reach (world E O) MovesEmpty w → SoleOwner w) ∧
    (∀ (w w' : World O) i j, Step E w (.moveConstruct i j) w' →
      ¬(w.ptr j = none ∧ w.stmt j = none) → ¬SoleOwner w') := by
  constructor
  · intro w hw
    obtain ⟨hconns,hstmts⟩ := owned hopen hprepare hw
    exact ⟨hconns.sole,hstmts.sole,hconns.safe,hstmts.safe⟩
  · intro w w' i j h hheld hsole
    cases h with
    | moveConstruct i j o new live =>
      have hij : j ≠ i := by
        rintro rfl
        simp [new] at live
      have hptr : w.ptr j = o.sqlitePtr := by simp [World.ptr,live]
      have hstmt : w.stmt j = o.sqliteStmt := by simp [World.stmt,live]
      apply hheld
      constructor
      · by_contra hne
        obtain ⟨c,hc⟩ := Option.ne_none_iff_exists'.mp hne
        exact hij (hsole.conns j i c (by simp [hij,hc]) (by simp [moveConstruct,← hptr,hc]))
      · by_contra hne
        obtain ⟨s,hs⟩ := Option.ne_none_iff_exists'.mp hne
        exact hij (hsole.stmts j i s (by simp [hij,hs]) (by simp [moveConstruct,← hstmt,hs]))

theorem reach_step {ok : World O → Action O → World O → Prop} {w w' : World O} {a : Action O}
    (hw : Reach (world E O) ok w) (hok : ok w a w') (h : Step E w a w') :
    Reach (world E O) ok w' := .step hw hok h

def oneOpened : World Bool :=
  ⟨Function.update (fun _ => none) false (some ⟨some 1,none⟩),
    [.openV2 "test.db" SQLITE_OK (some 1),.config]⟩

theorem oneOpened_reach {ok : World Bool → Action Bool → World Bool → Prop}
    (hconstruct : ∀ w w', ok w (.construct false) w')
    (hopen : ∀ w w', w.ptr false = none → ok w (.call false (.openSqliteDatabase "test.db")) w') :
    Reach (world sampleEngine Bool) ok oneOpened := by
  have hnew := reach_step (.init rfl) (hconstruct _ _)
    (Step.construct (E := sampleEngine) ⟨fun _ => none,[]⟩ false rfl)
  have hrun : runCall sampleEngine 0 ⟨⟨none,none⟩,[.config]⟩ (.openSqliteDatabase "test.db") =
      some (.opened true,⟨⟨some 1,none⟩,[.openV2 "test.db" SQLITE_OK (some 1),.config]⟩) := by
    decide
  have hopened := reach_step hnew (hopen _ _ rfl) (Step.call _ false ⟨none,none⟩ _ 0 _ _ rfl hrun)
  simpa [World.put,oneOpened] using hopened

theorem handles_have_one_owner_moved : ∃ w : World Bool,
    w.ptr true = some 1 ∧ w.ptr false = none ∧ SoleOwner w := by
  have hopened : Reach (world sampleEngine Bool) MovesEmpty oneOpened :=
    oneOpened_reach (by simp [MovesEmpty]) (by simp [MovesEmpty])
  have hnew := reach_step hopened (by simp [MovesEmpty])
    (Step.construct oneOpened true rfl)
  have hmoved := reach_step hnew (by simp [MovesEmpty])
    (Step.moveAssign _ true false ⟨none,none⟩ ⟨some 1,none⟩ (by decide) rfl rfl)
  refine ⟨_,?_,?_,(handles_have_one_owner sampleEngine openFresh_sampleEngine
    prepareFresh_sampleEngine).1 _ hmoved⟩
  · simp [moveAssign]
  · simp [moveAssign]

/-- An open object, a second one move-constructed from it, both destroyed: the connection is
closed twice. -/
theorem connection_closed_twice : ∃ w : World Bool,
    Reachable (world sampleEngine Bool) w ∧ ¬SoleOwner w := by
  have hopened : Reachable (world sampleEngine Bool) oneOpened :=
    oneOpened_reach (fun _ _ => trivial) fun _ _ _ => trivial
  have hmoved := reach_step hopened trivial
    (Step.moveConstruct oneOpened true false ⟨some 1,none⟩ rfl rfl)
  have hfirst := reach_step hmoved trivial
    (Step.destroy _ true ⟨some 1,none⟩ rfl)
  have hsecond := reach_step hfirst trivial
    (Step.destroy _ false ⟨some 1,none⟩ rfl)
  refine ⟨_,hsecond,fun h => ?_⟩
  have hsafe : Safe [.release 1,.release 1,.acquire 1] := h.connsSafe
  exact hsafe.2 (by simp [released])

end Handles
end AlephSql
