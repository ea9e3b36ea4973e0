import AlephSql.CallbackPool
import AlephSql.TwoPhases

/-! With any number of workers a program written in callbacks has one thread of control: what it
does is what it does in direct style. -/
namespace AlephSql

namespace SqlThread

open Transition Interleave

variable {m n : ℕ} {B D : Type} {T : Type} {C : Calls T B D} {i : Thread m n}
  {s s' : Shared m n T D} {p p' : Point T B}

def Posted (s : Shared m n T D) : Point T B → Prop
  | .posting _ .unlock | .posting _ .notify | .posting _ .done => s.pushed ≠ []
  | _ => True

theorem step_pushed_empty (h : Step C i s p s' p') (hs : s'.pushed = []) : s.pushed = [] := by
  cases h with
  | postPush => simp at hs
  | _ => exact hs

theorem step_posted (h : Step C i s p s' p') (hp : Posted s p) : Posted s' p' := by
  cases h with
  | postPush => simp [Posted]
  | postUnlock | postNotifyNobody | postNotifyOne => exact hp
  | _ => trivial

theorem posted {ok : Guard (Thread m n) (Shared m n T D) (Point T B)} {d₀ : D}
    {c : State m n T B D} (hc : Reach (pool C m n d₀).lts ok c) (i : Thread m n) :
    Posted c.shared (c.pc i) := by
  refine local_invariant (Q := fun _ s p => Posted s p) ?_ ?_ ?_ hc i
  · rintro s pc ⟨-,rfl⟩ i
    cases i <;> trivial
  · intro c d i _ _ h hq
    exact step_posted h (hq i)
  · intro c d i j _ _ _ h hq
    have hold := hq j
    generalize c.pc j = q at hold
    cases q with
    | posting k q =>
      cases q with
      | unlock | notify | done => exact fun hempty => hold (step_pushed_empty h hempty)
      | _ => trivial
    | _ => trivial

theorem step_from_idle (h : Step C i s .idle s' p') :
    ∃ j x, i = .poster j ∧ p' = .posting none (.lock x) ∧ s' = s := by
  cases h with
  | call j s x => exact ⟨j,x,rfl,rfl,rfl⟩

theorem step_to_idle (h : Step C i s p s' .idle) : p = .posting none .done := by
  cases h
  rfl

end SqlThread

namespace AsyncPool

open Transition Interleave Sqlite Database CallSteps Delivery SqlThread

variable {O K : Type}

section Control

/-- Where the program stands when this is queued. -/
def workStage : Work O K → Stage O K
  | .operation s => .asked s
  | .callback k => .answered k.token k.args

def bodyStage : CodedBody O K → Multiset (Stage O K)
  | (.entered x,_) => {.asked x.toSubmission}
  | (.calling x p,_) => {.calling x.toSubmission p}
  | (.returned x o,_) => {.returned x.toSubmission o}
  | (.openFailed x m,_) => {.openFailed x.toSubmission m}
  | (.deliver k,_) => {.answered k.token k.args}
  | (.inside k,false) => {.inside k.token k.args}
  | (.inside _,true) | (.ended _,_) => 0

def pointStage : Point (Work O K) (CodedBody O K) → Multiset (Stage O K)
  | .taken t => {workStage t.work}
  | p => held (fun _ => bodyStage) p + due (fun w => {workStage w}) p

def queueStage (tasks : List (SqlThread.Task (Work O K))) : Multiset (Stage O K) :=
  parts (fun t => {workStage t.work}) tasks

/-- Where in the queue and the threads the program stands. -/
def control {m n : ℕ} (c : CodedState m n O K) : Multiset (Stage O K) :=
  queueStage c.shared.tasks + ∑ i, pointStage (c.pc i)

variable [DecidableEq O] {m n : ℕ} {E : Engine} {R : Residue} {code : Code O K}
  {i : Thread m n} {s s' : Shared m n (Work O K) (Data O K)}
  {p p' : Point (Work O K) (CodedBody O K)} {b b' : CodedBody O K} {d d' : Data O K}

theorem act_proceeds (h : (codedCalls E R code).act b d b' d') :
    ∃ st st', bodyStage b = {st} ∧ bodyStage b' = {st'} ∧
      Proceeds E R code (some st,shown d) () (some st',shown d') := by
  obtain ⟨b,f⟩ := b
  obtain ⟨b',f'⟩ := b'
  obtain ⟨hact,hf,hf'⟩ := h
  simp only at hact hf hf'
  subst hf hf'
  cases hact with
  | enter x d => exact ⟨_,_,rfl,rfl,.call x.toSubmission _ _⟩
  | api x q q' d db h => exact ⟨_,_,rfl,rfl,.api x.toSubmission q q' _ _ db h⟩
  | callReturns x o d => exact ⟨_,_,rfl,rfl,.returns x.toSubmission o _ _⟩
  | openErrmsg x d => exact ⟨_,_,rfl,rfl,.errmsg x.toSubmission _ _⟩
  | invoke k d =>
    have hinvoke : Proceeds E R code (some (.answered k.token k.args),shown d) () _ :=
      .invoke k.token k.args _ _
    refine ⟨_,_,rfl,rfl,?_⟩
    simpa [shown] using hinvoke
  | callback k d objects calls h => exact h.elim

omit [DecidableEq O] in
theorem bodyStage_called (t : SqlThread.Task (Work O K)) :
    bodyStage (called t,false) = {workStage t.work} := by
  obtain ⟨i,work⟩ := t
  cases work <;> rfl

theorem posts_proceeds {w : Work O K} (v : World O × Log K) (h : CodedPosts R code b w b') :
    ∃ st st', bodyStage b = {st} ∧ bodyStage b' + {workStage w} = {st'} ∧
      Proceeds E R code (some st,v) () (some st',v) := by
  cases h with
  | operation b w b' f h hb =>
    cases h with
    | opened x => exact ⟨_,_,rfl,zero_add _,.opened x.toSubmission _ _⟩
    | openFailed x m => exact ⟨_,_,rfl,zero_add _,.failed x.toSubmission m _ _⟩
    | executed x r => exact ⟨_,_,rfl,zero_add _,.executed x.toSubmission r _ _⟩
    | submit k s => exact absurd rfl (hb k)
  | submit k s hcode => exact ⟨_,_,rfl,zero_add _,.submit _ _ s _ _ hcode⟩

/-- What a step does to the program: nothing, or one action, or it is begun. -/
theorem step_control (h : Step (codedCalls E R code) i s p s' p') :
    (queueStage s'.tasks + pointStage p' = queueStage s.tasks + pointStage p ∧
      shown s'.data = shown s.data) ∨
    (∃ j x, i = .poster j ∧ p' = .posting none (.lock x) ∧ pointStage p = 0 ∧
      pointStage p' = {workStage x} ∧ s' = s) ∨
    ∃ st st', pointStage p = {st} ∧ pointStage p' = (st' : Option (Stage O K)).toList ∧
      s'.tasks = s.tasks ∧ Proceeds E R code (some st,shown s.data) () (st',shown s'.data) := by
  cases h with
  | call j s x =>
    refine .inr (.inl ⟨j,x,rfl,rfl,rfl,?_,rfl⟩)
    simp [pointStage,held,callAt,due,pending]
  | act w s t b b' d' h =>
    obtain ⟨st,st',hb,hb',hnext⟩ := act_proceeds h
    refine .inr (.inr ⟨st,some st',?_,?_,rfl,hnext⟩)
    · simp [pointStage,held,callAt,due,pending,hb]
    · simp [pointStage,held,callAt,due,pending,hb']
  | taskPosts w s t b x b' h =>
    obtain ⟨st,st',hb,hb',hnext⟩ := posts_proceeds (E := E) (shown s.data) h
    refine .inr (.inr ⟨st,some st',?_,?_,rfl,hnext⟩)
    · simp [pointStage,held,callAt,due,pending,hb]
    · simpa [pointStage,held,callAt,due,pending] using hb'
  | taskReturns w s t b h =>
    have hafter : pointStage (.lockCount : Point (Work O K) (CodedBody O K)) = 0 := rfl
    cases h with
    | ended x f => exact .inl ⟨by rw [hafter]; rfl,rfl⟩
    | submitted k => exact .inl ⟨by rw [hafter]; rfl,rfl⟩
    | nothing k hcode => exact .inr (.inr ⟨_,none,rfl,rfl,rfl,.finish _ _ _ _ hcode⟩)
  | take w s t rest front =>
    have hrest : queueStage s.tasks = {workStage t.work} + queueStage rest := by
      simp [queueStage,parts,front]
    have hnone : pointStage (.afterWait : Point (Work O K) (CodedBody O K)) = 0 := rfl
    refine .inl ⟨?_,rfl⟩
    rw [hrest,hnone,add_zero,add_comm]
    rfl
  | taken w s t =>
    have hcalled : pointStage (.running t ((codedCalls E R code).call t)) = {workStage t.work} :=
      (add_zero _).trans (bodyStage_called t)
    exact .inl ⟨by rw [hcalled]; rfl,rfl⟩
  | postPush i s k x =>
    refine .inl ⟨?_,rfl⟩
    simp [queueStage,pointStage,held,callAt,due,pending,add_comm]
  | postLock i s k x | postCount i s k x => exact .inl ⟨rfl,rfl⟩
  | _ => exact .inl ⟨rfl,rfl⟩

end Control

section InStep

variable [DecidableEq O] {m n : ℕ} {E : Engine} {R : Residue} {code : Code O K}
  {objects : O → Object} {calls : History} {first : Submission O K} {c d : CodedState m n O K}
  {i : Thread m n}
  {ok : Guard (Thread m n) (Shared m n (Work O K) (Data O K)) (Point (Work O K) (CodedBody O K))}

theorem unbegun_of_step (hc : Reach (codedPool E R code m n objects calls).lts ok c)
    (h : (codedPool E R code m n objects calls).lts.step c i d) (hd : Unbegun d) : Unbegun c := by
  obtain ⟨hstep,hframe⟩ := h
  have hempty := step_pushed_empty hstep hd.1
  refine ⟨hempty,fun j => ?_⟩
  by_cases hj : Thread.poster j = i
  · subst hj
    have hposted := posted hc (.poster j)
    have hidle : Step (codedCalls E R code) (.poster j) c.shared (c.pc (.poster j)) d.shared
        .idle := hd.2 j ▸ hstep
    rw [step_to_idle hidle] at hposted
    exact absurd hempty hposted
  · rw [← hframe _ hj]
    exact hd.2 j

omit [DecidableEq O] in
theorem control_step (hframe : ∀ j, j ≠ i → d.pc j = c.pc j) :
    control d + (queueStage c.shared.tasks + pointStage (c.pc i)) =
      control c + (queueStage d.shared.tasks + pointStage (d.pc i)) := by
  have hsum := sum_move (fun _ => pointStage) hframe
  calc control d + (queueStage c.shared.tasks + pointStage (c.pc i))
      = queueStage d.shared.tasks + queueStage c.shared.tasks +
          (∑ j, pointStage (d.pc j) + pointStage (c.pc i)) := by rw [control]; abel
    _ = queueStage d.shared.tasks + queueStage c.shared.tasks +
          (∑ j, pointStage (c.pc j) + pointStage (d.pc i)) := by rw [hsum]
    _ = control c + (queueStage d.shared.tasks + pointStage (d.pc i)) := by rw [control]; abel

omit [DecidableEq O] in
theorem pointStage_le_control (i : Thread m n) : pointStage (c.pc i) ≤ control c := by
  have hle := Finset.single_le_sum (f := fun i => pointStage (c.pc i))
    (fun _ _ => Multiset.zero_le _) (Finset.mem_univ i)
  exact hle.trans (Multiset.le_add_left _ _)

/-- Before the program is begun, and from then on. -/
def InStep (E : Engine) (R : Residue) (code : Code O K) (w : World O) (first : Submission O K)
    (c : CodedState m n O K) : Prop :=
  (Unbegun c ∧ control c = 0 ∧ shown c.shared.data = (w,[])) ∨
    ¬Unbegun c ∧ ∃ st : Option (Stage O K), control c = st.toList ∧
      Reachable (program E R code w first) (st,shown c.shared.data)

theorem in_step_unbegun (hok : ∀ {c i d}, ok c i d → Starts first c i d) (hrun : ok c i d)
    (h : (codedPool E R code m n objects calls).lts.step c i d) {w : World O} (hc : Unbegun c)
    (hcontrol : control c = 0) (hshown : shown c.shared.data = (w,[])) :
    InStep E R code w first d := by
  obtain ⟨hstep,hframe⟩ := h
  have hcount := control_step hframe
  have hpoint : pointStage (c.pc i) = 0 := by
    have hle := pointStage_le_control (c := c) i
    rw [hcontrol] at hle
    exact le_antisymm hle (Multiset.zero_le _)
  rcases step_control hstep with ⟨hsame,hdata⟩ | ⟨j,x,rfl,hp',-,hstage,hs⟩ |
    ⟨st,-,hst,-⟩
  · left
    refine ⟨⟨?_,fun j => ?_⟩,?_,hdata.trans hshown⟩
    · by_contra hpushed
      obtain ⟨k,x,hp⟩ := push_of_pushed hstep (by rwa [hc.1])
      rw [hp] at hpoint
      simp [pointStage,due,pending] at hpoint
    · by_cases hj : Thread.poster j = i
      · subst hj
        rw [hc.2 j] at hstep
        obtain ⟨j',x,-,hp',hs⟩ := step_from_idle hstep
        rw [hp',hc.2 j,hs] at hsame
        simp [pointStage,held,callAt,due,pending] at hsame
      · rw [hframe _ hj]
        exact hc.2 j
    · rw [← hsame,hcontrol] at hcount
      exact add_right_cancel hcount
  · right
    obtain ⟨rfl,-⟩ := hok hrun j x rfl hp'
    refine ⟨fun hd => ?_,some (.asked first),?_,.init ?_⟩
    · have hidle := hd.2 j
      rw [hp'] at hidle
      cases hidle
    · rw [hpoint,hstage,hcontrol,hs,add_zero,zero_add,add_comm] at hcount
      exact add_left_cancel hcount
    · change _ = (_,w,[])
      rw [hs,hshown]
  · rw [hpoint] at hst
    exact absurd hst.symm (Multiset.singleton_ne_zero st)

/-- At any moment a program that has been begun stands at one place, and what has happened is what
happens in direct style. -/
theorem in_step (hok : ∀ {c i d}, ok c i d → Starts first c i d)
    (hc : Reach (codedPool E R code m n objects calls).lts ok c) :
    InStep E R code (objects,calls) first c := by
  refine hc.invariant (I := InStep E R code (objects,calls) first) ?_ ?_
  · rintro ⟨s,pc⟩ ⟨rfl,rfl⟩
    refine .inl ⟨⟨rfl,fun _ => rfl⟩,?_,rfl⟩
    have hnone : ∑ i : Thread m n, pointStage (O := O) (K := K) (startPoint i) = 0 :=
      Finset.sum_eq_zero fun i _ => by cases i <;> rfl
    simp [control,hnone,startShared,queueStage]
  · rintro c i d hc hin hrun h
    rcases hin with ⟨hbegun,hcontrol,hshown⟩ | ⟨hbegun,st,hcontrol,hreach⟩
    · exact in_step_unbegun hok hrun h hbegun hcontrol hshown
    · have hstill : ¬Unbegun d := fun hd => hbegun (unbegun_of_step hc h hd)
      obtain ⟨hstep,hframe⟩ := h
      have hcount := control_step hframe
      refine .inr ⟨hstill,?_⟩
      rcases step_control hstep with ⟨hsame,hdata⟩ | ⟨j,x,rfl,hp',-⟩ |
        ⟨now,next,hnow,hnext,htasks,hstep'⟩
      · rw [hsame] at hcount
        exact ⟨st,(add_right_cancel hcount).trans hcontrol,hdata ▸ hreach⟩
      · exact absurd (hok hrun j x rfl hp').2 hbegun
      · have hle := pointStage_le_control (c := c) i
        rw [hnow,hcontrol,Multiset.singleton_le] at hle
        obtain rfl : st = some now := by simpa using hle
        refine ⟨next,?_,hreach.step trivial hstep'⟩
        have hmoved : control d + (queueStage c.shared.tasks + {now}) =
            next.toList + (queueStage c.shared.tasks + {now}) := by
          rw [hnow,hnext,htasks,hcontrol] at hcount
          rw [hcount,Option.toList_some,Multiset.coe_singleton]
          abel
        exact add_right_cancel hmoved

end InStep

section Program

variable [DecidableEq O] {m n : ℕ}

omit [DecidableEq O] in
theorem pointStage_of_idle {p : Point (Work O K) (CodedBody O K)} (hcurrent : current p = 0)
    (hp : ∀ k q, p ≠ .posting k q) : pointStage p = 0 := by
  cases p with
  | taken t => simp [current] at hcurrent
  | running t b => simp [current] at hcurrent
  | posting k q => exact absurd rfl (hp k q)
  | _ => rfl

omit [DecidableEq O] in
theorem runs_seen {first : Submission O K} {c d : CodedState m n O K} {i : Thread m n}
    (h : Runs first c i d) :
    SubmitsBeforeShutdown (mapState Prod.fst c) i (mapState Prod.fst d) := by
  refine ⟨?_,fun j x hi hx => ⟨first,(h.1 j x hi (Point.map_lock.mp hx)).1⟩⟩
  simpa only [PostsBeforeShutdown,mapState,Point.map_idle,Point.map_alive] using h.2

theorem callbacks_run_in_sequence (E : Engine) (R : Residue) (code : Code O K) (m n : ℕ)
    (objects : O → Object) (calls : History) (first : Submission O K) (hn : 0 < n)
    (c : CodedState m n O K)
    (hc : Reach (codedPool E R code m n objects calls).lts (Runs first) c) :
    Reach (asyncPool E R (fun _ _ => False) m n objects calls).lts SubmitsBeforeShutdown
      (mapState Prod.fst c) ∧
    (∃ st, Reachable (program E R code (objects,calls) first) (st,shown c.shared.data)) ∧
    ((∀ w : Fin n, c.pc (.worker w) = .exited) → c.shared.pushed ≠ [] →
      ∃ fuel, runProgram E R code fuel (objects,calls) first =
        some ((shown c.shared.data).2,(shown c.shared.data).1)) := by
  have hin := in_step (fun h => h.1) hc
  refine ⟨coded_seenAs.reach (fun _ _ _ h => runs_seen h) hc,?_,fun hexit hpushed => ?_⟩
  · rcases hin with ⟨-,-,hshown⟩ | ⟨-,st,-,hreach⟩
    · exact ⟨some (.asked first),.init (by rw [hshown]; rfl)⟩
    · exact ⟨st,hreach⟩
  · have hposts : Reach (codedPool E R code m n objects calls).lts PostsBeforeShutdown c :=
      hc.mono fun _ _ _ h => h.2
    have hempty := tasks_of_exited hn hposts hexit
    have hreturned := postsReturned_of_exited hn hposts hexit
    have hnone : control c = 0 := by
      have hpoints : ∑ i, pointStage (c.pc i) = 0 := Finset.sum_eq_zero fun i _ =>
        pointStage_of_idle (current_of_exited hc hexit i) (hreturned i)
      simp [control,hpoints,hempty,queueStage]
    rcases hin with ⟨hbegun,-⟩ | ⟨-,st,hcontrol,hreach⟩
    · exact absurd hbegun.1 hpushed
    · rw [hnone] at hcontrol
      cases st with
      | none => exact runProgram_of_ended hreach
      | some st => simp at hcontrol

def openThenWrite : Code Unit Bool := fun _ args =>
  match args with
  | .opened pair =>
    if pair.1.truthy then none else some ⟨(),.executeSqlite "DELETE FROM test" [],true⟩
  | .executed _ => none

theorem callbacks_run_in_sequence_two : ∃ c : CodedState 1 1 Unit Bool,
    (shown c.shared.data).2.map Prod.fst = [false,true] ∧
    ∃ fuel, runProgram sampleEngine ⟨id,id⟩ openThenWrite fuel (fun _ => {},[.config])
        ⟨(),.openSqliteDatabase "test.db",false⟩ =
      some ((shown c.shared.data).2,(shown c.shared.data).1) := by
  obtain ⟨l,w',hrun,hl⟩ : ∃ l w', runProgram sampleEngine ⟨id,id⟩ openThenWrite 2
      (fun _ => {},[.config]) ⟨(),.openSqliteDatabase "test.db",false⟩ = some (l,w') ∧
      l.map Prod.fst = [false,true] := ⟨_,_,rfl,rfl⟩
  obtain ⟨c,hc,hexit,hpushed,hshown⟩ := program_realised hrun
  refine ⟨c,by rw [hshown]; exact hl,?_⟩
  exact (callbacks_run_in_sequence sampleEngine ⟨id,id⟩ openThenWrite 1 1 (fun _ => {}) [.config] _
    (by decide) c hc).2.2 hexit hpushed

end Program

end AsyncPool
end AlephSql
