import AlephSql.Completion

/-! A pool of one worker is sequentially consistent: what it has performed is what a plain
program would have done that makes the same calls in the order of the queue. -/
namespace AlephSql
namespace AsyncPool

open Transition Interleave Sqlite Database CallSteps Delivery SqlThread

variable {O K : Type}

@[simp] def onCall {X : Type} (f : Body O K → List X) (p : Point (Work O K) (Body O K)) : List X :=
  (callAt p).elim [] fun call => f call.2

@[simp] def onTaken {X : Type} (f : SqlThread.Task (Work O K) → Option X) :
    Point (Work O K) (Body O K) → List X
  | .taken t => (f t).toList
  | _ => []

@[simp] def onPending (p : Point (Work O K) (Body O K)) : List ℕ :=
  match pending p with
  | some (.callback k) => [k.op]
  | _ => []

@[simp] def entering : Body O K → List (Operation O K)
  | .entered x => [x]
  | _ => []

@[simp] def underway : Body O K → List (Operation O K)
  | .calling x _ => [x]
  | _ => []

@[simp] def owing : Body O K → List ℕ
  | .returned x _ | .openFailed x _ => [x.ticket]
  | _ => []

@[simp] def delivering : Body O K → List (Completion K)
  | .deliver k => [k]
  | _ => []

/-- Where the only worker stands, each log is ahead of the next by what the worker has in hand. -/
structure InOrder {m n : ℕ} (s : Shared m n (Work O K) (Data O K))
    (p : Point (Work O K) (Body O K)) : Prop where
  started : operations s.started = s.data.begun ++ (onTaken operationOf p ++ onCall entering p)
  begun : s.data.begun = s.data.performed.map Prod.fst ++ onCall underway p
  performed : s.data.performed.map (fun y => y.1.ticket) =
    (completions s.pushed).map Completion.op ++ (onPending p ++ onCall owing p)
  invoked : completions s.started =
    s.data.invoked ++ (onTaken completionOf p ++ onCall delivering p)

section Order

variable {m n : ℕ} {E : Engine} {R : Residue} {behaves : Behaviour O}
  {s s' : Shared m n (Work O K) (Data O K)} {p p' q : Point (Work O K) (Body O K)}

theorem begun_of_performed (h : InOrder s p) :
    s.data.begun = s.data.performed.map Prod.fst ∨
      ∃ x, s.data.begun = s.data.performed.map Prod.fst ++ [x] := by
  have hbegun := h.begun
  cases hcall : callAt p with
  | none => left; simpa [hcall] using hbegun
  | some call =>
    obtain ⟨t,b⟩ := call
    cases b with
    | calling x q => right; exact ⟨x,by simpa [hcall] using hbegun⟩
    | _ => left; simpa [hcall] using hbegun

section Outside

variable {C : Calls (Work O K) (Body O K) (Data O K)} {i : Thread m n}

theorem step_data (h : Step C i s p s' p')
    (hi : ∀ w, i ≠ .worker w) : s'.data = s.data := by
  cases h with
  | act w s t b b' d' h => exact absurd rfl (hi w)
  | _ => rfl

theorem step_submits (h : Step C i s p s' p')
    (hi : ∀ w, i ≠ .worker w)
    (hout : ∀ j x, i = .poster j → p' = .posting none (.lock x) → ∃ s, x = .operation s)
    (hp : ∀ k, pending p ≠ some (.callback k)) : ∀ k, pending p' ≠ some (.callback k) := by
  cases h with
  | call j s x =>
    obtain ⟨y,rfl⟩ := hout j x rfl rfl
    simp [pending]
  | taskPosts w => exact absurd rfl (hi w)
  | postPush => simp [pending]
  | _ => exact hp

end Outside

variable [DecidableEq O]

theorem act_inOrder {t : SqlThread.Task (Work O K)} {b b' : Body O K} {d d' : Data O K}
    (h : Act E behaves b d b' d') (hs : s.data = d) (ho : InOrder s (.running t b)) :
    InOrder { s with data := d' } (.running t b') := by
  obtain ⟨hstarted,hbegun,hperformed,hinvoked⟩ := ho
  rw [hs] at hstarted hbegun hperformed hinvoked
  cases h with
  | api x p p' d db h => exact ⟨hstarted,hbegun,hperformed,hinvoked⟩
  | openErrmsg x d => exact ⟨hstarted,hbegun,hperformed,hinvoked⟩
  | callback k d objects calls h => exact ⟨hstarted,hbegun,hperformed,hinvoked⟩
  | _ => constructor <;> simp_all [pending,callAt]

omit [DecidableEq O] in
theorem posts_inOrder {t : SqlThread.Task (Work O K)} {b b' : Body O K} {w : Work O K}
    (h : Posts R b w b') (ho : InOrder s (.running t b)) :
    InOrder s (.posting (some (t,b')) (.lock w)) := by
  obtain ⟨hstarted,hbegun,hperformed,hinvoked⟩ := ho
  cases h with
  | _ => constructor <;> simp_all [pending,callAt]

theorem step_inOrder {i : Thread m n} (h : Step (asyncCalls E R behaves) i s p s' p')
    (hi : ∀ k, i = .poster k → False) (ho : InOrder s p) : InOrder s' p' := by
  cases h with
  | call k s x => exact (hi k rfl).elim
  | act w s t b b' d' h => exact act_inOrder h rfl ho
  | taskPosts w s t b x b' h => exact posts_inOrder h ho
  | take w s t rest front =>
    obtain ⟨hstarted,hbegun,hperformed,hinvoked⟩ := ho
    refine ⟨?_,hbegun,hperformed,?_⟩
    · simp_all [callAt]
    · simp_all [callAt]
  | taken w s t =>
    obtain ⟨hstarted,hbegun,hperformed,hinvoked⟩ := ho
    obtain ⟨i,work⟩ := t
    cases work with
    | operation x => exact ⟨hstarted,hbegun,hperformed,hinvoked⟩
    | callback k => exact ⟨hstarted,hbegun,hperformed,hinvoked⟩
  | taskReturns w s t b h =>
    obtain ⟨hstarted,hbegun,hperformed,hinvoked⟩ := ho
    cases b with
    | ended x => exact ⟨hstarted,hbegun,hperformed,hinvoked⟩
    | inside k => exact ⟨hstarted,hbegun,hperformed,hinvoked⟩
    | _ => cases h
  | postPush i s k x =>
    obtain ⟨hstarted,hbegun,hperformed,hinvoked⟩ := ho
    refine ⟨hstarted,hbegun,?_,hinvoked⟩
    cases x with
    | operation x => simp_all [completionOf,pending,callAt]
    | callback k => simp_all [completionOf,pending,callAt]
  | _ => exact ⟨ho.started,ho.begun,ho.performed,ho.invoked⟩

theorem step_inOrder_other {i : Thread m n} (h : Step (asyncCalls E R behaves) i s p s' p')
    (hi : ∀ w, i ≠ .worker w)
    (hsubmits : ∀ k, pending p ≠ some (.callback k)) (ho : InOrder s q) : InOrder s' q := by
  obtain ⟨hstarted,hbegun,hperformed,hinvoked⟩ := ho
  cases h with
  | postPush i s k x =>
    refine ⟨hstarted,hbegun,?_,hinvoked⟩
    cases x with
    | operation x =>
      rw [completions_append,completions_singleton]
      simpa only [completionOf,Option.toList_none,List.append_nil] using hperformed
    | callback k => exact absurd rfl (hsubmits k)
  | call | postLock | postCount | postUnlock | postNotifyNobody | postNotifyOne | returnToPoster
  | returnToTask | storeStop | notifyStop | join | joined =>
    exact ⟨hstarted,hbegun,hperformed,hinvoked⟩
  | _ => exact absurd rfl (hi _)

end Order

section Serial

variable [DecidableEq O] {E : Engine} {fuel fuel' : ℕ} {w w' : World O}

/-- The same calls made synchronously, one after the other. -/
def runCalls (E : Engine) (fuel : ℕ) : World O → List (Submission O K) →
    Option (List Outcome × World O)
  | w, [] => some ([],w)
  | w, s :: rest => (runCall E fuel ⟨w.1 s.self,w.2⟩ s.call).bind fun answer =>
      (runCalls E fuel (Function.update w.1 s.self answer.2.self,answer.2.calls) rest).map
        fun others => (answer.1 :: others.1,others.2)

theorem runCalls_le (hle : fuel ≤ fuel') {l : List (Submission O K)} {os : List Outcome}
    (h : runCalls E fuel w l = some (os,w')) : runCalls E fuel' w l = some (os,w') := by
  induction l generalizing w os with
  | nil => exact h
  | cons s l ih =>
    simp only [runCalls,Option.bind_eq_some_iff,Option.map_eq_some_iff] at h ⊢
    obtain ⟨answer,hcall,⟨others,after⟩,hrest,hos⟩ := h
    obtain ⟨rfl,rfl⟩ := Prod.mk.inj hos
    exact ⟨answer,runCall_le hle hcall,_,ih hrest,rfl⟩

theorem runCalls_snoc {l : List (Submission O K)} {os : List Outcome} {x : Submission O K}
    {o : Outcome} {db : Db} (h : runCalls E fuel w l = some (os,w'))
    (hx : runCall E fuel ⟨w'.1 x.self,w'.2⟩ x.call = some (o,db)) :
    runCalls E fuel w (l ++ [x]) =
      some (os ++ [o],(Function.update w'.1 x.self db.self,db.calls)) := by
  induction l generalizing w os with
  | nil =>
    cases h
    simp [runCalls,hx]
  | cons s l ih =>
    simp only [List.cons_append,runCalls,Option.bind_eq_some_iff,Option.map_eq_some_iff] at h ⊢
    obtain ⟨answer,hcall,⟨others,after⟩,hrest,hos⟩ := h
    obtain ⟨rfl,rfl⟩ := Prod.mk.inj hos
    exact ⟨answer,hcall,_,ih hrest,rfl⟩

/-- The data is what the synchronous program has reached, but for `sqlite3_errmsg` calls. -/
def Settled (w : World O) (d : Data O K) : Prop :=
  d.objects = w.1 ∧ withoutErrmsg d.calls = withoutErrmsg w.2

/-- The synchronous program stands between two calls, or in the call that the worker is in. -/
def Follows (E : Engine) (w : World O) (d : Data O K) (p : Point (Work O K) (Body O K)) : Prop :=
  match callAt p with
  | some (_,.calling x q) => ∃ db, Ticks E x.call (⟨w.1 x.self,w.2⟩,.start) (db,q) ∧
      Settled (Function.update w.1 x.self db.self,db.calls) d
  | _ => Settled w d

/-- The synchronous program has made the calls performed so far, with the same outcomes. -/
def Serial (E : Engine) (w₀ : World O) (d : Data O K) (p : Point (Work O K) (Body O K)) : Prop :=
  ∃ fuel w, runCalls E fuel w₀ (d.performed.map fun y => y.1.toSubmission) =
    some (d.performed.map Prod.snd,w) ∧ Follows E w d p

variable {w₀ : World O} {t : SqlThread.Task (Work O K)} {b b' : Body O K} {d d' : Data O K}

theorem act_serial (hE : ErrmsgNeutral E) (h : Act E (fun _ _ => False) b d b' d')
    (hs : Serial E w₀ d (.running t b)) : Serial E w₀ d' (.running t b') := by
  obtain ⟨fuel,w,hrun,hfollows⟩ := hs
  cases h with
  | enter x d =>
    have hset : Settled w d := hfollows
    refine ⟨fuel,w,hrun,⟨_,_⟩,.refl,?_⟩
    simpa [Settled] using hset
  | api x p p' d db h =>
    obtain ⟨sync,hticks,hobjects,hcalls⟩ := hfollows
    have hself : d.objects x.self = sync.self := by simp [hobjects]
    rw [hself] at h
    obtain ⟨es,hes,hstep⟩ := callStep_sameAnswers (hE.sameAnswers hcalls) h
    refine ⟨fuel,w,hrun,⟨db.self,es ++ sync.calls⟩,hticks.tail hstep,?_,?_⟩
    · simp [Data.after,hobjects]
    · have hadd := congrArg (withoutErrmsg es ++ ·) hcalls
      simpa [Data.after,hes,withoutErrmsg] using hadd
  | callReturns x o d =>
    obtain ⟨sync,hticks,hset⟩ := hfollows
    obtain ⟨fuel',hcall⟩ := resume_of_ticks hticks
    refine ⟨max fuel fuel',_,?_,hset⟩
    have hnext := runCalls_snoc (runCalls_le (le_max_left fuel fuel') hrun)
      (runCall_le (le_max_right fuel fuel') hcall)
    simpa using hnext
  | openErrmsg x d =>
    have hset : Settled w d := hfollows
    refine ⟨fuel,w,hrun,?_,?_⟩
    · simpa [Data.after,Db.errmsg,Db.log] using hset.1
    · simpa [Data.after,Db.errmsg,Db.log,withoutErrmsg,Event.isErrmsg] using hset.2
  | invoke k d => exact ⟨fuel,w,hrun,hfollows⟩
  | callback k d objects calls h => exact h.elim

section Step

variable {m n : ℕ} {R : Residue} {s s' : Shared m n (Work O K) (Data O K)}
  {p p' q : Point (Work O K) (Body O K)} {i : Thread m n}

/-- One action of a thread, in the eyes of the synchronous program. -/
theorem step_serial (hE : ErrmsgNeutral E) (h : Step (asyncCalls E R fun _ _ => False) i s p s' p')
    (hs : Serial E w₀ s.data p) : Serial E w₀ s'.data p' := by
  cases h with
  | act w s t b b' d' h => exact act_serial hE h hs
  | taskPosts w s t b x b' h =>
    obtain ⟨fuel,w,hrun,hfollows⟩ := hs
    cases h with
    | _ => exact ⟨fuel,w,hrun,hfollows⟩
  | taken w s t =>
    obtain ⟨i,work⟩ := t
    cases work with
    | operation x => exact hs
    | callback k => exact hs
  | taskReturns w s t b h =>
    cases b with
    | ended x => exact hs
    | inside k => exact hs
    | _ => cases h
  | _ => exact hs

end Step

end Serial

section OneWorker

variable [DecidableEq O] {m : ℕ} {E : Engine} {R : Residue} {objects : O → Object}
  {calls : History} {c : AsyncState m 1 O K}

theorem not_worker {i : Thread m 1} (h : i ≠ .worker 0) (w : Fin 1) : i ≠ .worker w := by
  rwa [Subsingleton.elim w 0]

theorem outside_submits {behaves : Behaviour O}
    (hc : Reach (asyncPool E R behaves m 1 objects calls).lts Submits c) {i : Thread m 1}
    (hi : i ≠ .worker 0) : ∀ k, pending (c.pc i) ≠ some (.callback k) := by
  refine watched_invariant i (Q := fun _ p => ∀ k, pending p ≠ some (.callback k)) ?_ ?_ ?_ hc
  · rintro s pc ⟨rfl,rfl⟩ k
    cases i <;> simp [startPoint,pending]
  · intro c d _ hok h hq
    exact step_submits h (not_worker hi) hok hq
  · intro c d j _ _ _ _ hq
    exact hq

theorem in_order {behaves : Behaviour O}
    (hc : Reach (asyncPool E R behaves m 1 objects calls).lts Submits c) :
    InOrder c.shared (c.pc (.worker 0)) := by
  refine watched_invariant (.worker 0) (Q := fun s p => InOrder s p) ?_ ?_ ?_ hc
  · rintro s pc ⟨rfl,rfl⟩
    exact ⟨rfl,rfl,rfl,rfl⟩
  · intro c d _ _ h hq
    exact step_inOrder h (by simp) hq
  · intro c d i hi hc _ h hq
    exact step_inOrder_other h (not_worker hi) (outside_submits hc hi) hq

theorem serial (hE : ErrmsgNeutral E)
    (hc : Reach (asyncPool E R (fun _ _ => False) m 1 objects calls).lts Submits c) :
    Serial E (objects,calls) c.shared.data (c.pc (.worker 0)) := by
  refine watched_invariant (.worker 0) (Q := fun s p => Serial E (objects,calls) s.data p)
    ?_ ?_ ?_ hc
  · rintro s pc ⟨rfl,rfl⟩
    exact ⟨0,_,rfl,rfl,rfl⟩
  · intro c d _ _ h hq
    exact step_serial hE h hq
  · intro c d i hi _ _ h hq
    rwa [step_data h (not_worker hi)]

end OneWorker

/-- With one worker the database calls are made one at a time in the order of the queue, their
outcomes are those of the same calls made synchronously, and the callbacks come in this order. -/
theorem one_worker_sequential [DecidableEq O] (E : Engine) (hE : ErrmsgNeutral E) (R : Residue)
    (m : ℕ) (objects : O → Object) (calls : History) (c : AsyncState m 1 O K)
    (hc : Reach (asyncPool E R (fun _ _ => False) m 1 objects calls).lts Submits c) :
    c.shared.data.begun <+: operations c.shared.pushed ∧
    c.shared.data.performed.map Prod.fst <+: operations c.shared.pushed ∧
    (c.shared.data.begun = c.shared.data.performed.map Prod.fst ∨
      ∃ x, c.shared.data.begun = c.shared.data.performed.map Prod.fst ++ [x]) ∧
    (∃ fuel w, runCalls E fuel (objects,calls)
        (c.shared.data.performed.map fun y => y.1.toSubmission) =
      some (c.shared.data.performed.map Prod.snd,w)) ∧
    c.shared.data.invoked.map Completion.op <+: (operations c.shared.pushed).map Operation.ticket ∧
    ∀ k ∈ c.shared.data.invoked, Truthful c.shared.data k := by
  have horder := in_order hc
  have hpushed := started_le_pushed hc
  obtain ⟨fuel,w,hrun,-⟩ := serial hE hc
  have hstarted : c.shared.data.begun <+: operations c.shared.started := ⟨_,horder.started.symm⟩
  have hbegun : c.shared.data.begun <+: operations c.shared.pushed :=
    hstarted.trans (hpushed.filterMap operationOf)
  have hperformed : c.shared.data.performed.map Prod.fst <+: c.shared.data.begun :=
    ⟨_,horder.begun.symm⟩
  have hinvoked : c.shared.data.invoked <+: completions c.shared.started := ⟨_,horder.invoked.symm⟩
  have hposted : (completions c.shared.pushed).map Completion.op <+:
      c.shared.data.performed.map fun y => y.1.ticket := ⟨_,horder.performed.symm⟩
  have htickets : (c.shared.data.performed.map fun y => y.1.ticket) <+:
      (operations c.shared.pushed).map Operation.ticket := by
    simpa [Function.comp_def] using (hperformed.trans hbegun).map Operation.ticket
  have hordered := (hinvoked.trans (hpushed.filterMap completionOf)).map Completion.op
  refine ⟨hbegun,hperformed.trans hbegun,begun_of_performed horder,⟨fuel,w,hrun⟩,
    (hordered.trans hposted).trans htickets,fun k hk => ?_⟩
  exact truthful_of_posted id hc
    ((hinvoked.trans (hpushed.filterMap completionOf)).subset hk)

theorem one_worker_sequential_open : ∃ c : AsyncState 1 1 Unit Unit,
    timesPerformed c 0 = 1 ∧ timesInvoked c 0 = 1 ∧
    c.shared.data.performed.map Prod.fst <+: operations c.shared.pushed ∧
    (∃ fuel w, runCalls sampleEngine fuel (fun _ : Unit => {},[.config])
        (c.shared.data.performed.map fun y => y.1.toSubmission) =
      some (c.shared.data.performed.map Prod.snd,w)) := by
  obtain ⟨c,hc,hexit,hpushed⟩ := openOnce_drained
  have hsubmitted : openOnce ∈ operations c.shared.pushed := by
    rw [hpushed]
    simp [operations,operationOf,taskOf]
  obtain ⟨htimes,hinvoked,-⟩ := (completed_of_exited (by decide) hc hexit).2 openOnce hsubmitted
  obtain ⟨-,hperformed,-,hrun,-,-⟩ := one_worker_sequential sampleEngine errmsgNeutral_sampleEngine
    ⟨id,id⟩ 1 (fun _ => {}) [.config] c (hc.mono fun _ _ _ h => h.2)
  exact ⟨c,htimes,hinvoked,hperformed,hrun⟩

end AsyncPool
end AlephSql
