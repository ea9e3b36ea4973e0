import AlephSql.CallbackProgram
import AlephSql.Completion

/-! Programs written in callbacks on the pool, and the run of one worker that goes through one. -/
namespace AlephSql
namespace AsyncPool

open Transition Interleave Sqlite Database CallSteps Delivery SqlThread

variable {O K : Type}

abbrev CodedBody (O K : Type) := Body O K × Bool

inductive CodedPosts (R : Residue) (code : Code O K) :
    CodedBody O K → Work O K → CodedBody O K → Prop
  | operation (b w b' f) (h : Posts R b w b') (hb : ∀ k, b ≠ .inside k) :
      CodedPosts R code (b,f) w (b',f)
  | submit (k s) (h : code k.token k.args = some s) :
      CodedPosts R code (.inside k,false) (.operation s) (.inside k,true)

inductive CodedReturns (code : Code O K) : CodedBody O K → Prop
  | ended (x f) : CodedReturns code (.ended x,f)
  | submitted (k) : CodedReturns code (.inside k,true)
  | nothing (k) (h : code k.token k.args = none) : CodedReturns code (.inside k,false)

section Coded

variable [DecidableEq O]

/-- The tasks of the asynchronous API with callbacks that submit what the code says, once. -/
def codedCalls (E : Engine) (R : Residue) (code : Code O K) :
    Calls (Work O K) (CodedBody O K) (Data O K) where
  call t := (called t,false)
  act b d b' d' := Act E (fun _ _ => False) b.1 d b'.1 d' ∧ b.2 = false ∧ b'.2 = false
  post := CodedPosts R code
  returned := CodedReturns code

abbrev codedPool (E : Engine) (R : Residue) (code : Code O K) (m n : ℕ) (objects : O → Object)
    (calls : History) :
    Threads (Thread m n) (Shared m n (Work O K) (Data O K)) (Point (Work O K) (CodedBody O K)) :=
  pool (codedCalls E R code) m n (fresh objects calls)

abbrev CodedState (m n : ℕ) (O K : Type) := State m n (Work O K) (CodedBody O K) (Data O K)

variable {m n : ℕ} {E : Engine} {R : Residue} {code : Code O K}

theorem coded_seenAs : SeenAs Prod.fst (codedCalls E R code) (asyncCalls E R fun _ _ => False) where
  call _ := rfl
  act h := h.1
  post h := by
    cases h with
    | operation b w b' f h hb => exact h
    | submit k s h => exact .submit k s
  returned h := by
    cases h <;> trivial

end Coded

def Unbegun {m n : ℕ} (c : CodedState m n O K) : Prop :=
  c.shared.pushed = [] ∧ ∀ j, c.pc (.poster j) = .idle

/-- A thread outside submits the first operation of the program, once, and nothing else. -/
def Starts {m n : ℕ} (first : Submission O K) : Guard (Thread m n) (Shared m n (Work O K)
    (Data O K)) (Point (Work O K) (CodedBody O K)) := fun c i d =>
  ∀ j x, i = .poster j → d.pc i = .posting none (.lock x) → x = .operation first ∧ Unbegun c

/-- The first operation is submitted once, before `~sql_thread` starts. -/
def Runs {m n : ℕ} (first : Submission O K) : Guard (Thread m n) (Shared m n (Work O K)
    (Data O K)) (Point (Work O K) (CodedBody O K)) := fun c i d =>
  Starts first c i d ∧ PostsBeforeShutdown c i d

def shown (d : Data O K) : World O × Log K :=
  ((d.objects,d.calls),d.invoked.map fun k => (k.token,k.args))

section Realised

variable [DecidableEq O] {m n : ℕ} (E : Engine) (R : Residue) (code : Code O K)
  (objects : O → Object) (calls : History) (w : Fin n) {s : Shared m n (Work O K) (Data O K)}

theorem coded_post_alone {t : SqlThread.Task (Work O K)} {b b' : CodedBody O K} {x : Work O K}
    (h : CodedPosts R code b x b') (hfree : s.taskMutex = none) :
    ∃ z W, Alone (codedPool E R code m n objects calls) (.worker w) (s,.running t b)
      ({ s with runningCount := z, waiters := W, tasks := s.tasks ++ [⟨s.pushed.length,x⟩]
                pushed := s.pushed ++ [⟨s.pushed.length,x⟩] },.running t b') := by
  have hcall := alone_next (P := codedPool E R code m n objects calls) .refl
    (Step.taskPosts w s t b x b' h)
  have hlock := alone_next hcall (Step.postLock (.worker w) s (some (t,b')) x hfree)
  have hcount := alone_next hlock (Step.postCount _ _ (some (t,b')) x)
  have hpush := alone_next hcount (Step.postPush _ _ (some (t,b')) x)
  have hunlock := alone_next hpush (Step.postUnlock _ _ (some (t,b')))
  rcases s.waiters.eq_empty_or_nonempty with hnobody | ⟨j,hj⟩
  · have hnotify := alone_next hunlock (Step.postNotifyNobody _ _ (some (t,b')) hnobody)
    have hback := alone_next hnotify (Step.returnToTask _ _ t b')
    exact ⟨_,s.waiters,by simpa [hfree] using hback⟩
  · have hnotify := alone_next hunlock (Step.postNotifyOne _ _ (some (t,b')) j hj)
    have hback := alone_next hnotify (Step.returnToTask _ _ t b')
    exact ⟨_,s.waiters.erase j,by simpa [hfree] using hback⟩

theorem coded_act_alone {t : SqlThread.Task (Work O K)} {b b' : Body O K} {d' : Data O K}
    (h : Act E (fun _ _ => False) b s.data b' d') :
    Alone (codedPool E R code m n objects calls) (.worker w) (s,.running t (b,false))
      ({ s with data := d' },.running t (b',false)) :=
  .single (Step.act w s t _ _ _ ⟨h,rfl,rfl⟩)

theorem coded_ticks_alone {t : SqlThread.Task (Work O K)} (x : Operation O K) {p p' : CallPc}
    {db : Db} (h : Ticks E x.call (⟨s.data.objects x.self,s.data.calls⟩,p) (db,p')) :
    Alone (codedPool E R code m n objects calls) (.worker w) (s,.running t (.calling x p,false))
      ({ s with data := s.data.after x.self db },.running t (.calling x p',false)) := by
  generalize hb : (db,p') = b at h
  induction h generalizing db p' with
  | refl =>
    cases hb
    simpa [Data.after] using Relation.ReflTransGen.refl
  | @tail a b _ htick ih =>
    subst hb
    obtain ⟨d,q⟩ := a
    have hstep : callStep E x.call ⟨(s.data.after x.self d).objects x.self,d.calls⟩ q =
        some (db,p') := by simpa [Data.after,Tick] using htick
    have hnext := (ih rfl).trans
      (coded_act_alone E R code objects calls w (Act.api x q p' _ db hstep))
    simpa [Data.after] using hnext

theorem coded_call_alone (x : Operation O K) {fuel : ℕ} {o : Outcome} {db : Db}
    (hcall : runCall E fuel ⟨s.data.objects x.self,s.data.calls⟩ x.call = some (o,db)) :
    ∃ d, Alone (codedPool E R code m n objects calls) (.worker w)
        (s,.running (taskOf x) (.entered x,false))
        ({ s with data := d },.running (taskOf x) (.returned x o,false)) ∧
      shown d = (put (shown s.data).1 x.self db,(shown s.data).2) := by
  have henter : Alone (codedPool E R code m n objects calls) (.worker w) _ _ :=
    coded_act_alone E R code objects calls w (t := taskOf x) (Act.enter x s.data)
  have hrun := henter.trans
    (coded_ticks_alone E R code objects calls w x (ticks_of_runCall hcall))
  exact ⟨_,hrun.trans (coded_act_alone E R code objects calls w (Act.callReturns x o _)),rfl⟩

theorem coded_tell_alone (x : Operation O K) (o : Outcome) (hfree : s.taskMutex = none)
    {told : Arguments × Db}
    (htold : tells E R x.call (o,⟨s.data.objects x.self,s.data.calls⟩) = told) :
    ∃ z W d, Alone (codedPool E R code m n objects calls) (.worker w)
        (s,.running (taskOf x) (.returned x o,false))
        ({ s with
            runningCount := z, waiters := W, data := d
            tasks := s.tasks ++ [⟨s.pushed.length,.callback ⟨x.ticket,x.token,told.1⟩⟩]
            pushed := s.pushed ++ [⟨s.pushed.length,.callback ⟨x.ticket,x.token,told.1⟩⟩] },
          .running (taskOf x) (.ended x,false)) ∧
      shown d = (put (shown s.data).1 x.self told.2,(shown s.data).2) := by
  have hsame : shown s.data = (put (shown s.data).1 x.self ⟨s.data.objects x.self,s.data.calls⟩,
      (shown s.data).2) := by
    have hput := put_self (shown s.data).1 x.self
    exact Prod.ext hput.symm rfl
  subst htold
  cases o with
  | opened success =>
    cases success with
    | true =>
      obtain ⟨z,W,hpost⟩ := coded_post_alone E R code objects calls w (s := s)
        (CodedPosts.operation _ _ _ false (Posts.opened x) (by simp)) hfree
      exact ⟨z,W,s.data,hpost,hsame⟩
    | false =>
      obtain ⟨z,W,hpost⟩ := coded_post_alone E R code objects calls w (s := { s with
          data := s.data.after x.self (Db.errmsg E ⟨s.data.objects x.self,s.data.calls⟩).2 })
        (CodedPosts.operation _ _ _ false (Posts.openFailed x _) (by simp)) hfree
      exact ⟨z,W,_,(coded_act_alone E R code objects calls w (Act.openErrmsg x _)).trans hpost,rfl⟩
  | executed r =>
    obtain ⟨z,W,hpost⟩ := coded_post_alone E R code objects calls w (s := s)
      (CodedPosts.operation _ _ _ false (Posts.executed x r) (by simp)) hfree
    exact ⟨z,W,s.data,hpost,hsame⟩

structure Awaits (s : Shared m n (Work O K) (Data O K))
    (tasks : List (SqlThread.Task (Work O K))) : Prop where
  stop : s.stop = true
  taskMutex : s.taskMutex = none
  countMutex : s.countMutex = none
  tasks : s.tasks = tasks
  pushed : s.pushed ≠ []

theorem coded_serve_operation {x : Operation O K} (hs : Awaits s [taskOf x]) {fuel : ℕ}
    {a : Outcome × Db}
    (hcall : runCall E fuel ⟨(shown s.data).1.1 x.self,(shown s.data).1.2⟩ x.call = some a) :
    ∃ u j, Alone (codedPool E R code m n objects calls) (.worker w) (s,.lockTasks) (u,.lockTasks) ∧
      Awaits u [⟨j,.callback ⟨x.ticket,x.token,(tells E R x.call a).1⟩⟩] ∧
      shown u.data = (put (shown s.data).1 x.self (tells E R x.call a).2,(shown s.data).2) := by
  obtain ⟨o,db⟩ := a
  obtain ⟨d,hrun,hd⟩ := coded_call_alone E R code objects calls w (s := { s with
    tasks := [], started := s.started ++ [taskOf x] }) x hcall
  have hdb : (⟨d.objects x.self,d.calls⟩ : Db) = db := by
    change (⟨(shown d).1.1 x.self,(shown d).1.2⟩ : Db) = db
    rw [hd]
    simp [put]
  obtain ⟨z,W,d',hpost,hd'⟩ := coded_tell_alone E R code objects calls w (s := { s with
    tasks := [], started := s.started ++ [taskOf x], data := d }) x o hs.taskMutex
    (congrArg (fun db => tells E R x.call (o,db)) hdb)
  obtain ⟨z',W',hserve⟩ := serve_body_alone (codedCalls E R code) (fresh objects calls) w hs.stop
    hs.taskMutex hs.tasks (hrun.trans hpost) (.ended x false) hs.countMutex
  refine ⟨_,_,hserve,⟨hs.stop,hs.taskMutex,hs.countMutex,rfl,by simp⟩,?_⟩
  rw [hd',hd,put_put]

theorem coded_serve_callback {j : ℕ} {k : Completion K} (hs : Awaits s [⟨j,.callback k⟩]) :
    ∃ u, Alone (codedPool E R code m n objects calls) (.worker w) (s,.lockTasks) (u,.lockTasks) ∧
      shown u.data = ((shown s.data).1,(shown s.data).2 ++ [(k.token,k.args)]) ∧
      ∃ i, Awaits u ((code k.token k.args).map fun x => taskOf ⟨x,i⟩).toList := by
  have hinvoke := coded_act_alone E R code objects calls w (s := { s with
    tasks := [], started := s.started ++ [⟨j,.callback k⟩] }) (t := ⟨j,.callback k⟩)
    (Act.invoke k s.data)
  cases hcode : code k.token k.args with
  | none =>
    obtain ⟨z,W,hserve⟩ := serve_body_alone (codedCalls E R code) (fresh objects calls) w hs.stop
      hs.taskMutex hs.tasks hinvoke (.nothing k hcode) hs.countMutex
    exact ⟨_,hserve,by simp [shown],0,hs.stop,hs.taskMutex,hs.countMutex,rfl,hs.pushed⟩
  | some x =>
    obtain ⟨z,W,hpost⟩ := coded_post_alone E R code objects calls w (s := { s with
        tasks := [], started := s.started ++ [⟨j,.callback k⟩]
        data := { s.data with invoked := s.data.invoked ++ [k] } }) (t := ⟨j,.callback k⟩)
      (CodedPosts.submit k x hcode) hs.taskMutex
    obtain ⟨z',W',hserve⟩ := serve_body_alone (codedCalls E R code) (fresh objects calls) w hs.stop
      hs.taskMutex hs.tasks (hinvoke.trans hpost) (.submitted k) hs.countMutex
    exact ⟨_,hserve,by simp [shown],s.pushed.length,hs.stop,hs.taskMutex,hs.countMutex,rfl,by simp⟩

/-- A worker by itself goes through a program that comes to its end. -/
theorem coded_program_alone {fuel : ℕ} {x : Operation O K} (hs : Awaits s [taskOf x]) {l : Log K}
    {w' : World O}
    (hrun : runProgram E R code fuel (shown s.data).1 x.toSubmission = some (l,w')) :
    ∃ u, Alone (codedPool E R code m n objects calls) (.worker w) (s,.lockTasks) (u,.lockTasks) ∧
      Awaits u [] ∧ shown u.data = (w',(shown s.data).2 ++ l) := by
  induction fuel generalizing s x l with
  | zero => cases hrun
  | succ fuel ih =>
    rw [runProgram_succ,Option.bind_eq_some_iff] at hrun
    obtain ⟨a,hcall,hgo⟩ := hrun
    obtain ⟨l',rfl,hrest⟩ := goOn_eq_some.mp hgo
    obtain ⟨u,j,hoperation,hu,hshown⟩ := coded_serve_operation E R code objects calls w hs hcall
    obtain ⟨v,hcallback,hshown',i,hv⟩ := coded_serve_callback E R code objects calls w hu
    rw [hshown] at hshown'
    cases hcode : code x.token (tells E R x.call a).1 with
    | none =>
      rw [hcode] at hv hrest
      obtain ⟨rfl,rfl⟩ := Prod.mk.inj (Option.some.inj hrest)
      exact ⟨v,hoperation.trans hcallback,hv,hshown'⟩
    | some x' =>
      rw [hcode] at hv hrest
      obtain ⟨u',hprogram,hu',hend⟩ := ih (x := ⟨x',i⟩) hv (by rw [hshown']; exact hrest)
      refine ⟨u',(hoperation.trans hcallback).trans hprogram,hu',?_⟩
      rw [hend,hshown']
      simp

theorem coded_leave_alone (hs : Awaits s []) : ∃ u,
    Alone (codedPool E R code m n objects calls) (.worker w) (s,.lockTasks) (u,.exited) ∧
      u.data = s.data ∧ u.pushed ≠ [] := by
  have hlock := alone_next (P := codedPool E R code m n objects calls) .refl
    (Step.lockTasks w s hs.taskMutex)
  have hpass := alone_next hlock (Step.predicateTrue w _ (by simp [waitPredicate,hs.stop]))
  have hempty := alone_next hpass (Step.stopEmpty w _ hs.tasks hs.stop)
  exact ⟨_,alone_next hempty (Step.leave w _),rfl,hs.pushed⟩

end Realised

section Program

variable [DecidableEq O] {m n : ℕ} {E : Engine} {R : Residue} {code : Code O K}
  {objects : O → Object} {calls : History}

theorem runs_next {first : Submission O K} {c : CodedState m n O K} {i : Thread m n}
    {s s' : Shared m n (Work O K) (Data O K)} {p p' : Point (Work O K) (CodedBody O K)}
    (hc : Reach (codedPool E R code m n objects calls).lts (Runs first) (c.move i s p))
    (h : Step (codedCalls E R code) i s p s' p') (hi : i ≠ .destroyer) (hp : p ≠ .idle)
    (hp' : ∀ x, p' ≠ .posting none (.lock x)) :
    Reach (codedPool E R code m n objects calls).lts (Runs first) (c.move i s' p') := by
  refine reach_next hc h ⟨fun j x _ hx => ?_,fun hd => absurd hd hi,fun j _ hidle => ?_⟩
  · rw [Config.move_self] at hx
    exact absurd hx (hp' x)
  · rw [Config.move_self] at hidle
    exact absurd hidle hp

/-- Every program that comes to its end in direct style does so on a pool of one worker. -/
theorem program_realised {fuel : ℕ} {first : Submission O K} {l : Log K} {w' : World O}
    (hrun : runProgram E R code fuel (objects,calls) first = some (l,w')) :
    ∃ c : CodedState 1 1 O K, Reach (codedPool E R code 1 1 objects calls).lts (Runs first) c ∧
      (∀ w, c.pc (.worker w) = .exited) ∧ c.shared.pushed ≠ [] ∧
        shown c.shared.data = (w',l) := by
  let start : CodedState 1 1 O K := ⟨startShared (fresh objects calls),startPoint⟩
  have hstart : Reach (codedPool E R code 1 1 objects calls).lts (Runs first) start :=
    .init ⟨rfl,rfl⟩
  have hcall := reach_move hstart (.poster 0) (Step.call 0 _ (.operation first))
    ⟨fun j x _ hx => ⟨by simpa using hx.symm,rfl,fun _ => rfl⟩,by simp,fun _ _ _ => rfl⟩
  have hlock := runs_next hcall (Step.postLock _ _ none _ rfl) (by simp) (by simp) (by simp)
  have hcount := runs_next hlock (Step.postCount _ _ none _) (by simp) (by simp) (by simp)
  have hpush := runs_next hcount (Step.postPush _ _ none _) (by simp) (by simp) (by simp)
  have hunlock := runs_next hpush (Step.postUnlock _ _ none) (by simp) (by simp) (by simp)
  have hnotify := runs_next hunlock (Step.postNotifyNobody _ _ none rfl) (by simp) (by simp)
    (by simp)
  have hidle := runs_next hnotify (Step.returnToPoster _ _) (by simp) (by simp) (by simp)
  have hstop := reach_move hidle .destroyer (Step.storeStop _)
    ⟨by simp [Starts],fun _ _ j => by rw [Subsingleton.elim j 0]; exact Config.move_self _ _ _ _,
      by simp⟩
  set stopped := Config.move (Config.move start _ _ _) _ _ _ with hstopped
  have hready : Awaits stopped.shared [taskOf ⟨first,0⟩] := ⟨rfl,rfl,rfl,rfl,by simp [hstopped]⟩
  obtain ⟨u,hprogram,hu,hshown⟩ :=
    coded_program_alone E R code objects calls (0 : Fin 1) hready hrun
  obtain ⟨v,hleave,hdata,hpushed⟩ := coded_leave_alone E R code objects calls (0 : Fin 1) hu
  have hworker : Continues (codedPool E R code 1 1 objects calls).lts (Runs first) _ _ :=
    continues_alone (hprogram.trans hleave) stopped
      fun d e _ => ⟨by simp [Starts],by simp,by simp⟩
  have hback : stopped.move (.worker 0) stopped.shared .lockTasks = stopped :=
    Config.move_pc stopped (.worker 0) stopped.shared
  rw [hback] at hworker
  refine ⟨_,hstop.continues hworker,fun w => ?_,hpushed,?_⟩
  · rw [Subsingleton.elim w 0]
    exact Config.move_self _ _ _ _
  · change shown v.data = _
    rw [hdata,hshown]
    rfl

end Program

end AsyncPool
end AlephSql
