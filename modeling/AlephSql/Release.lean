import AlephSql.Handles

/-! Whether every handle is given back. A prepare, an open and a move assignment overwrite the
member they store to, whatever it holds. -/
namespace AlephSql
namespace Handles

open Sqlite Database CallSteps Transition Custody

variable {O : Type} [DecidableEq O] {E : Engine}

structure Tidy (w : World O) : Prop where
  owned : Owned w
  conns : Kept w.ptr (connLog w.calls)
  stmts : Kept w.stmt (stmtLog w.calls)
  pairs : ∀ i s, w.stmt i = some s → ∃ c, w.ptr i = some c ∧
    ∀ conn, (s,conn) ∈ prepared w.calls → conn = some c

/-- Programs that overwrite no handle: they execute only on objects without a statement, open
only objects without a connection, and move only into objects that hold nothing. -/
def KeepsHandles : World O → Action O → World O → Prop := fun w a _ => match a with
  | .construct _ | .destroy _ => True
  | .call i (.openSqliteDatabase name) => name = "" ∨ w.ptr i = none
  | .call i (.executeSqlite _ _) | .call i (.executeSqliteSelect _ _) =>
    w.ptr i = none ∨ w.stmt i = none
  | .moveConstruct _ j => w.ptr j = none ∧ w.stmt j = none
  | .moveAssign i j => i = j ∨ w.ptr i = none ∧ w.stmt i = none

/-- The same inside an operation: what it overwrites next is null. -/
def Fits (call : Call) (d : Db) : CallPc → Prop
  | .start => match call with
    | .openSqliteDatabase name => name = "" ∨ d.self.sqlitePtr = none
    | .executeSqlite _ _ | .executeSqliteSelect _ _ =>
      d.self.sqlitePtr = none ∨ d.self.sqliteStmt = none
  | .prepare => d.self.sqlitePtr ≠ none ∧ d.self.sqliteStmt = none
  | _ => True

section Ticks

variable {w : World O} {i : O} {call : Call} {d d' : Db} {p p' : CallPc}

theorem fits_step (h : Fits call d p) (hstep : callStep E call d p = some (d',p')) :
    Fits call d' p' := by
  cases p with
  | start =>
    cases call with
    | openSqliteDatabase name =>
      simp only [callStep] at hstep
      split at hstep
      · cases hstep; trivial
      · split at hstep <;> cases hstep <;> trivial
    | executeSqlite sql args | executeSqliteSelect sql args =>
      simp only [callStep] at hstep
      split at hstep
      · cases hstep; trivial
      · next hopen => cases hstep; exact ⟨hopen,h.resolve_left hopen⟩
  | prepare =>
    cases call with
    | openSqliteDatabase name => cases hstep
    | executeSqlite sql args | executeSqliteSelect sql args =>
      simp only [callStep] at hstep
      split at hstep <;> cases hstep <;> trivial
  | bind index rest =>
    cases rest with
    | nil => cases call <;> cases hstep <;> trivial
    | cons a rest => cases hstep; trivial
  | columnText count rows remaining index row => cases remaining <;> cases hstep <;> trivial
  | compileErrmsg => cases call <;> cases hstep <;> trivial
  | executeStep | selectStep =>
    simp only [callStep] at hstep
    split at hstep <;> cases hstep <;> trivial
  | openErrmsg | changes | stepErrmsg | columnCount => cases hstep; trivial
  | done => cases hstep

theorem prepared_log {e : Sqlite.Event} (he : e.isPrepare = false) :
    prepared (d.log e).calls = prepared d.calls := by
  have hnone : e.prepares = none := by
    cases e with
    | prepareV2 => cases he
    | _ => rfl
  simp [prepared,Db.log,hnone]

theorem Tidy.log (h : Tidy (w.put i d)) {e : Sqlite.Event} (he : e.isPrepare = false)
    (howned : Owned (w.put i (d.log e))) {x : Option ConnId} {y : Option StmtId}
    (hc : connEvent e = x.map .use) (hs : stmtEvent e = y.map .use) :
    Tidy (w.put i (d.log e)) where
  owned := howned
  conns := by
    have huse := h.conns.useNullable x
    simp only [ptr_put,put_calls,Db.log,connLog_cons,hc] at huse ⊢
    exact huse
  stmts := by
    have huse := h.stmts.useNullable y
    simp only [stmt_put,put_calls,Db.log,stmtLog_cons,hs] at huse ⊢
    exact huse
  pairs := by
    rw [put_calls,prepared_log he]
    exact h.pairs

omit [DecidableEq O] in
theorem Tidy.stmt_none (h : Tidy w) (hptr : w.ptr i = none) : w.stmt i = none := by
  by_contra hne
  obtain ⟨s,hs⟩ := Option.ne_none_iff_exists'.mp hne
  obtain ⟨c,hc,-⟩ := h.pairs i s hs
  simp [hptr] at hc

theorem Tidy.openV2 (hfresh : OpenFresh E) (h : Tidy (w.put i d)) (hptr : d.self.sqlitePtr = none)
    (name : String) : Tidy (w.put i (d.openV2 E name).2) where
  owned := h.owned.openV2 hfresh name
  conns := by
    have hnew := h.conns.acquireNullable (i := i) (by simp [hptr])
      (E.openV2 d.calls (cString name)).2
    simp only [ptr_put,put_calls,Function.update_idem] at hnew
    simp only [ptr_put,put_calls,Db.openV2,connLog_cons]
    exact hnew
  stmts := by
    simp only [stmt_put,put_calls,Db.openV2,stmtLog_cons]
    simpa [stmtEvent] using h.stmts
  pairs := by
    have hstmt : (w.put i d).stmt i = none := h.stmt_none (by simp [hptr])
    intro j s hj
    have hj' : (w.put i d).stmt j = some s := by simpa [Db.openV2] using hj
    have hne : j ≠ i := by
      rintro rfl
      simp [hstmt] at hj'
    obtain ⟨c,hc,hconn⟩ := h.pairs j s hj'
    refine ⟨c,by simpa [hne] using hc,?_⟩
    simpa [Db.openV2,prepared,Sqlite.Event.prepares] using hconn

theorem mem_prepared_prepareV2 {sql : String} {s : StmtId} {conn : Option ConnId} :
    (s,conn) ∈ prepared (d.prepareV2 E sql).2.calls ↔
      ((d.prepareV2 E sql).2.self.sqliteStmt = some s ∧ d.self.sqlitePtr = conn) ∨
        (s,conn) ∈ prepared d.calls := by
  have hcons : prepared (d.prepareV2 E sql).2.calls =
      ((d.prepareV2 E sql).2.self.sqliteStmt.map fun s => (s,d.self.sqlitePtr)).toList ++
        prepared d.calls := filterMap_cons_toList _ _ _
  simp [hcons]

theorem Tidy.prepareV2 (hfresh : PrepareFresh E) (h : Tidy (w.put i d))
    (hptr : d.self.sqlitePtr ≠ none) (hstmt : d.self.sqliteStmt = none) (sql : String) :
    Tidy (w.put i (d.prepareV2 E sql).2) where
  owned := h.owned.prepareV2 hfresh sql
  conns := by
    have huse := h.conns.useNullable d.self.sqlitePtr
    simp only [ptr_put,put_calls,Db.prepareV2,connLog_cons] at huse ⊢
    exact huse
  stmts := by
    have hnew := h.stmts.acquireNullable (i := i) (by simp [hstmt])
      (E.prepareV2 d.calls d.self.sqlitePtr (cString sql)).2
    simp only [stmt_put,put_calls,Function.update_idem] at hnew
    simp only [stmt_put,put_calls,Db.prepareV2,stmtLog_cons]
    exact hnew
  pairs := by
    have hnew : ∀ {s conn}, (d.prepareV2 E sql).2.self.sqliteStmt = some s →
        (s,conn) ∉ prepared d.calls := fun hs hmem =>
      hfresh _ _ _ _ hs (List.mem_map_of_mem hmem)
    intro j s hj
    simp only [stmt_put] at hj
    rcases held_update hj with ⟨rfl,hs⟩ | ⟨hne,hs⟩
    · obtain ⟨c,hc⟩ := Option.ne_none_iff_exists'.mp hptr
      refine ⟨c,by simpa [Db.prepareV2] using hc,fun conn hconn => ?_⟩
      rcases mem_prepared_prepareV2.mp hconn with ⟨-,hptr⟩ | hold
      · exact hptr.symm.trans hc
      · exact absurd hold (hnew hs)
    · have hs' : (w.put i d).stmt j = some s := by simpa [hne] using hs
      obtain ⟨c,hc,hconn⟩ := h.pairs j s hs'
      refine ⟨c,by simpa [hne] using hc,fun conn hmem => ?_⟩
      rcases mem_prepared_prepareV2.mp hmem with ⟨hout,-⟩ | hold
      · have hlive := (h.owned.stmts.live j s hs').1
        simp only [put_calls,acquired_stmtLog] at hlive
        exact absurd hlive (hfresh _ _ _ _ hout)
      · exact hconn conn hold

theorem tidy_tick (hopen : OpenFresh E) (hprepare : PrepareFresh E) (h : Tidy (w.put i d))
    (hfits : Fits call d p) (hstep : callStep E call d p = some (d',p')) : Tidy (w.put i d') := by
  have howned := owned_tick hopen hprepare h.owned hstep
  rcases callStep_effect hstep with ⟨rfl,-⟩ | ⟨name,rfl,hname,rfl,rfl,-⟩ |
    ⟨sql,args,-,rfl,rfl,-⟩ | ⟨e,hstmt,rfl,-⟩ | ⟨e,hconn,rfl,hquiet,-,-⟩
  · exact h
  · exact h.openV2 hopen (hfits.resolve_left hname) name
  · exact h.prepareV2 hprepare hfits.1 hfits.2 sql
  · obtain ⟨hc,hs⟩ := connEvent_of_stmt hstmt
    exact h.log (isPrepare_of_stmt hstmt) howned (x := none) hc hs
  · obtain ⟨hc,hs⟩ := connEvent_of_conn hconn hquiet
    exact h.log hquiet howned (y := none) hc hs

theorem tidy_runCall (hopen : OpenFresh E) (hprepare : PrepareFresh E) {fuel : ℕ}
    {out : Outcome} (h : Tidy (w.put i d)) (hfits : Fits call d .start)
    (hrun : runCall E fuel d call = some (out,d')) : Tidy (w.put i d') :=
  ((ticks_of_runCall hrun).invariant (I := fun d p => Tidy (w.put i d) ∧ Fits call d p)
    (fun hd hstep => ⟨tidy_tick hopen hprepare hd.1 hd.2 hstep,fits_step hd.2 hstep⟩)
    ⟨h,hfits⟩).1

end Ticks

section World

variable {w w' : World O} {i : O}

omit [DecidableEq O] in
theorem Tidy.holder (h : Tidy w) {s : StmtId} {conn : Option ConnId}
    (hp : (s,conn) ∈ prepared w.calls) (hf : s ∉ finalized w.calls) :
    ∃ i c, w.stmt i = some s ∧ w.ptr i = some c ∧ conn = some c := by
  obtain ⟨i,hi⟩ := h.stmts s (by simpa using ⟨conn,hp⟩) (by simpa using hf)
  obtain ⟨c,hc,hconn⟩ := h.pairs i s hi
  exact ⟨i,c,hi,hc,hconn conn hp⟩

omit [DecidableEq O] in
/-- Once its own statement is finalized the close of an object's connection succeeds. -/
theorem Tidy.close (hclose : CloseRefuses E) (h : Tidy w) {o : Object}
    (hi : w.objects i = some o) {c : ConnId} (hc : o.sqlitePtr = some c) :
    E.close (.finalize o.sqliteStmt :: w.calls) (some c) = SQLITE_OK := by
  have hptr : w.ptr i = some c := by simp [World.ptr,hi,hc]
  have hstmt : w.stmt i = o.sqliteStmt := by simp [World.stmt,hi]
  rw [hclose,outstanding,List.map_eq_nil_iff,List.filter_eq_nil_iff]
  rintro ⟨s,conn⟩ hmem
  simp only [decide_eq_true_eq,not_and,not_not]
  rintro rfl
  have hfinal : finalized (.finalize o.sqliteStmt :: w.calls) =
      o.sqliteStmt.toList ++ finalized w.calls := filterMap_cons_toList _ _ _
  rw [hfinal,List.mem_append]
  by_cases hf : s ∈ finalized w.calls
  · exact .inr hf
  · obtain ⟨j,c',hj,hcj,hconn⟩ := h.holder hmem hf
    cases hconn
    have hji : j = i := h.owned.conns.sole j i c hcj hptr
    subst hji
    exact .inl (by simp [← hstmt,hj])

theorem tidy_destroy (hclose : CloseRefuses E) (h : Tidy w) {o : Object}
    (hi : w.objects i = some o) :
    Tidy ⟨Function.update w.objects i none,destroy E ⟨o,w.calls⟩⟩ where
  owned := owned_destroy h.owned hi
  conns := by
    have hptr : w.ptr i = o.sqlitePtr := by simp [World.ptr,hi]
    have hrelease := h.conns.releaseNullable i
    rw [hptr] at hrelease
    rw [ptr_destroyed,connLog_destroy]
    cases hc : o.sqlitePtr with
    | none => simpa [hc,nullable] using hrelease
    | some c => simpa [h.close hclose hi hc,hc] using hrelease
  stmts := by
    have hstmt : w.stmt i = o.sqliteStmt := by simp [World.stmt,hi]
    rw [stmt_destroyed,stmtLog_destroy,← hstmt]
    exact h.stmts.releaseNullable i
  pairs := by
    intro j s hj
    rw [stmt_destroyed] at hj
    rcases held_update hj with ⟨-,hx⟩ | ⟨hne,hj⟩
    · cases hx
    · obtain ⟨c,hc,hconn⟩ := h.pairs j s hj
      refine ⟨c,by simp [hne,hc],?_⟩
      simpa [destroy,Db.log,prepared,Sqlite.Event.prepares] using hconn

theorem Tidy.put_empty (h : Tidy w) (hptr : w.ptr i = none) (hstmt : w.stmt i = none)
    (calls : History) (hc : connLog calls = connLog w.calls)
    (hs : stmtLog calls = stmtLog w.calls) (hp : prepared calls = prepared w.calls) :
    Tidy (w.put i ⟨⟨none,none⟩,calls⟩) where
  owned := by
    constructor
    · simpa [hc] using h.owned.conns.drop i
    · simpa [hs] using h.owned.stmts.drop i
  conns := by simpa [hc] using h.conns.drop hptr
  stmts := by simpa [hs] using h.stmts.drop hstmt
  pairs := by
    intro j s hj
    rw [stmt_put] at hj
    rcases held_update hj with ⟨-,hx⟩ | ⟨hne,hj⟩
    · cases hx
    · obtain ⟨c,hcj,hconn⟩ := h.pairs j s hj
      exact ⟨c,by simp [hne,hcj],by simpa [hp] using hconn⟩

/-- An object that holds nothing takes over the handles of another one. -/
theorem Tidy.transfer (h : Tidy w) {j : O} {source : Object} (hij : i ≠ j)
    (hi : w.ptr i = none ∧ w.stmt i = none) (hj : w.objects j = some source) :
    Tidy ((w.put i ⟨(moveAssign source).1,w.calls⟩).put j ⟨(moveAssign source).2,w.calls⟩) where
  owned := owned_moveAssign h.owned hj
  conns := by
    have hptr : w.ptr j = source.sqlitePtr := by simp [World.ptr,hj]
    simpa [moveAssign,hptr] using h.conns.transfer hij hi.1
  stmts := by
    have hstmt : w.stmt j = source.sqliteStmt := by simp [World.stmt,hj]
    simpa [moveAssign,hstmt] using h.stmts.transfer hij hi.2
  pairs := by
    have hptr : w.ptr j = source.sqlitePtr := by simp [World.ptr,hj]
    have hstmt : w.stmt j = source.sqliteStmt := by simp [World.stmt,hj]
    intro k s hk
    simp only [stmt_put,moveAssign] at hk
    rcases held_update hk with ⟨-,hx⟩ | ⟨hkj,hk⟩
    · cases hx
    · rcases held_update hk with ⟨rfl,hs⟩ | ⟨hki,hk⟩
      · obtain ⟨c,hc,hconn⟩ := h.pairs j s (hstmt.trans hs)
        exact ⟨c,by simpa [hij,moveAssign] using hptr.symm.trans hc,hconn⟩
      · obtain ⟨c,hc,hconn⟩ := h.pairs k s hk
        exact ⟨c,by simpa [hkj,hki] using hc,hconn⟩

theorem tidy_step (hopen : OpenFresh E) (hprepare : PrepareFresh E) (hclose : CloseRefuses E)
    {a : Action O} (hok : KeepsHandles w a w') (hstep : Step E w a w') (h : Tidy w) : Tidy w' := by
  cases hstep with
  | construct i new =>
    exact h.put_empty (by simp [World.ptr,new]) (by simp [World.stmt,new]) _ rfl rfl rfl
  | call i o c fuel out d live runs =>
    have hput := put_live live
    refine tidy_runCall hopen hprepare (hput.symm ▸ h) ?_ runs
    cases c <;> simpa [KeepsHandles,Fits,World.ptr,World.stmt,live] using hok
  | moveConstruct i j o new live =>
    obtain ⟨hptr,hstmt⟩ := hok
    simp only [World.ptr,World.stmt,live,Option.bind_some] at hptr hstmt
    simp only [moveConstruct,hptr,hstmt]
    exact h.put_empty (by simp [World.ptr,new]) (by simp [World.stmt,new]) _ rfl rfl rfl
  | moveAssignSelf i o live => exact h
  | moveAssign i j o source other live from_live =>
    exact h.transfer other (hok.resolve_left other) from_live
  | destroy i o live => exact tidy_destroy hclose h live

theorem tidy (hopen : OpenFresh E) (hprepare : PrepareFresh E) (hclose : CloseRefuses E)
    (hw : Reach (world E O) KeepsHandles w) : Tidy w := by
  refine hw.invariant (I := Tidy) ?_ fun _ hi hok h => tidy_step hopen hprepare hclose hok h hi
  rintro w rfl
  exact ⟨⟨sound_nil,sound_nil⟩,kept_nil,kept_nil,fun i s hs => by cases hs⟩

end World

/-- A live connection has at most one statement that is not finalized, the one its owner holds,
and once no object is left nothing is. -/
structure Released (w : World O) : Prop where
  owner : ∀ c ∈ opened w.calls, c ∉ closed w.calls → ∀ s ∈ outstanding w.calls c,
    ∃ i, w.ptr i = some c ∧ w.stmt i = some s
  single : ∀ c ∈ opened w.calls, c ∉ closed w.calls → ∀ s ∈ outstanding w.calls c,
    ∀ s' ∈ outstanding w.calls c, s = s'
  stmts : (∀ i, w.objects i = none) → ∀ p ∈ prepared w.calls, p.1 ∈ finalized w.calls
  conns : (∀ i, w.objects i = none) → ∀ c ∈ opened w.calls, c ∈ closed w.calls

omit [DecidableEq O] in
theorem Tidy.outstanding {w : World O} (h : Tidy w) {c : ConnId} {s : StmtId}
    (hs : s ∈ Sqlite.outstanding w.calls c) : ∃ i, w.ptr i = some c ∧ w.stmt i = some s := by
  obtain ⟨⟨t,conn⟩,hp,rfl⟩ := List.mem_map.mp hs
  simp only [List.mem_filter,decide_eq_true_eq] at hp
  obtain ⟨hmem,hconn,hf⟩ := hp
  obtain ⟨i,c',hi,hc,hc'⟩ := h.holder hmem hf
  exact ⟨i,by rw [hc,← hc',hconn],hi⟩

/-- Every handle is released in programs that overwrite none. -/
theorem handles_released (E : Engine) (hopen : OpenFresh E) (hprepare : PrepareFresh E)
    (hclose : CloseRefuses E) (w : World O) (hw : Reach (world E O) KeepsHandles w) :
    Released w := by
  have h := tidy hopen hprepare hclose hw
  refine ⟨fun c _ _ s hs => h.outstanding hs,fun c _ _ s hs s' hs' => ?_,fun hnone p hp => ?_,
    fun hnone c hc => ?_⟩
  · obtain ⟨i,hi,his⟩ := h.outstanding hs
    obtain ⟨j,hj,hjs⟩ := h.outstanding hs'
    have hij := h.owned.conns.sole i j c hi hj
    subst hij
    exact Option.some.inj (his.symm.trans hjs)
  · have hall := h.stmts.all_released (fun i => by simp [World.stmt,hnone]) p.1
    simpa using hall (by simpa using ⟨p.2,hp⟩)
  · have hall := h.conns.all_released (fun i => by simp [World.ptr,hnone]) c
    simpa using hall (by simpa using hc)

def deleteTest : Call := .executeSqlite "DELETE FROM test" []

def executionCalls (s : StmtId) : History :=
  [.changes (some 1) 0,.step (some s) SQLITE_DONE,
    .prepareV2 (some 1) "DELETE FROM test" SQLITE_OK (some s)]

def oneExecuted : World Bool :=
  oneOpened.put false ⟨⟨some 1,some 1⟩,executionCalls 1 ++ oneOpened.calls⟩

theorem oneExecuted_reach {ok : World Bool → Action Bool → World Bool → Prop}
    (hconstruct : ∀ w w', ok w (.construct false) w')
    (hopen : ∀ w w', w.ptr false = none → ok w (.call false (.openSqliteDatabase "test.db")) w')
    (hexecute : ∀ w w', w.stmt false = none → ok w (.call false deleteTest) w') :
    Reach (world sampleEngine Bool) ok oneExecuted := by
  have hopened := oneOpened_reach hconstruct hopen
  have hrun : runCall sampleEngine 0 ⟨⟨some 1,none⟩,oneOpened.calls⟩ deleteTest =
      some (.executed (executed 0),⟨⟨some 1,some 1⟩,executionCalls 1 ++ oneOpened.calls⟩) := by
    decide
  exact reach_step hopened (hexecute _ _ rfl) (Step.call _ false _ _ 0 _ _ rfl hrun)

theorem handles_released_once : ∃ w : World Bool,
    Released w ∧ (∀ i, w.objects i = none) ∧ 1 ∈ opened w.calls ∧ 1 ∈ closed w.calls := by
  have hexecuted : Reach (world sampleEngine Bool) KeepsHandles oneExecuted :=
    oneExecuted_reach (fun _ _ => trivial) (fun _ _ h => .inr h) fun _ _ h => .inr h
  have hdestroyed := reach_step hexecuted (a := .destroy false) trivial
    (Step.destroy _ false ⟨some 1,some 1⟩ rfl)
  refine ⟨_,handles_released sampleEngine openFresh_sampleEngine prepareFresh_sampleEngine
    closeRefuses_sampleEngine _ hdestroyed,fun i => ?_,by decide,by decide⟩
  cases i <;> rfl

/-- Two executions, then the destructor: the first statement is never finalized, and the close
of the connection is refused. -/
theorem second_execution_leaks : ∃ w : World Bool,
    Reachable (world sampleEngine Bool) w ∧ (∀ i, w.objects i = none) ∧
      closed w.calls = [] ∧ finalized w.calls = [2] ∧ ¬Released w := by
  have hexecuted : Reachable (world sampleEngine Bool) oneExecuted :=
    oneExecuted_reach (fun _ _ => trivial) (fun _ _ _ => trivial) fun _ _ _ => trivial
  have hrun : runCall sampleEngine 0 ⟨⟨some 1,some 1⟩,oneExecuted.calls⟩ deleteTest =
      some (.executed (executed 0),⟨⟨some 1,some 2⟩,executionCalls 2 ++ oneExecuted.calls⟩) := by
    decide
  have htwice := reach_step hexecuted trivial (Step.call _ false _ _ 0 _ _ rfl hrun)
  have hdestroyed := reach_step htwice trivial (Step.destroy _ false ⟨some 1,some 2⟩ rfl)
  have hnone : ∀ i, (World.objects ⟨Function.update (oneExecuted.put false ⟨⟨some 1,some 2⟩,
      executionCalls 2 ++ oneExecuted.calls⟩).objects false none,[]⟩) i = none := by
    intro i
    cases i <;> rfl
  refine ⟨_,hdestroyed,hnone,by decide,by decide,fun h => ?_⟩
  have hclosed := h.conns hnone 1 (by decide)
  exact absurd hclosed (by decide)

end Handles
end AlephSql
