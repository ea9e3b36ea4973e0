import AlephSql.SqlThread
import AlephSql.Dispatch

/-! What every reachable state of the pool satisfies: who holds the two mutexes, what a
worker may rely on where it stands, and the refinement of a dispatcher that runs each task
once, in the order of the queue. -/
namespace AlephSql
namespace SqlThread

open Transition Interleave

variable {m n : ℕ} {T B D : Type} {C : Calls T B D} {d₀ : D}

/-- Between a lock of `M_task_mutex_` and the unlock that follows it. -/
@[simp] def holdsTasks : Point T B → Bool
  | .posting _ (.count _) | .posting _ (.push _) | .posting _ .unlock => true
  | .testPredicate | .park | .afterWait | .skip | .leave | .taken _ => true
  | _ => false

/-- Between a lock of `M_running_count_mutex_` and the unlock that follows it. -/
@[simp] def holdsCount : Point T B → Bool
  | .testPositive | .decrement | .testZero | .testEmpty | .notifyIdle | .unlockCount => true
  | _ => false

theorem step_taskMutex {i : Thread m n} {s s' : Shared m n T D} {p p' : Point T B}
    (h : Step C i s p s' p') :
    LockAction i s.taskMutex s'.taskMutex (holdsTasks p) (holdsTasks p') := by
  cases h <;> simp_all [LockAction]

theorem step_countMutex {i : Thread m n} {s s' : Shared m n T D} {p p' : Point T B}
    (h : Step C i s p s' p') :
    LockAction i s.countMutex s'.countMutex (holdsCount p) (holdsCount p') := by
  cases h <;> simp_all [LockAction]

theorem step_tasks {i : Thread m n} {s s' : Shared m n T D} {p p' : Point T B}
    (h : Step C i s p s' p') : s'.tasks = s.tasks ∨ holdsTasks p = true := by
  cases h <;> simp

theorem step_grows {i : Thread m n} {s s' : Shared m n T D} {p p' : Point T B}
    (h : Step C i s p s' p') (hs : s.tasks = []) (hs' : s'.tasks ≠ []) :
    ∃ k, p' = .posting k .unlock := by
  cases h <;> simp_all

theorem step_stop {i : Thread m n} {s s' : Shared m n T D} {p p' : Point T B}
    (h : Step C i s p s' p') (hs : s.stop = true) : s'.stop = true := by
  cases h <;> first | exact hs | rfl

theorem step_stop_other {i : Thread m n} {s s' : Shared m n T D} {p p' : Point T B}
    (h : Step C i s p s' p') (hi : i ≠ .destroyer) : s'.stop = s.stop := by
  cases h with
  | storeStop s => exact absurd rfl hi
  | _ => rfl

@[simp] def Left : Point T B → Prop
  | .leave | .exited => True
  | _ => False

theorem step_left {i : Thread m n} {s s' : Shared m n T D} {p p' : Point T B}
    (h : Step C i s p s' p') (hp : Left p') : Left p ∨ (p = .afterWait ∧ s.tasks = []) := by
  cases h with
  | stopEmpty w s empty stop => exact .inr ⟨rfl,empty⟩
  | _ => simp_all

theorem step_left_holds {i : Thread m n} {s s' : Shared m n T D} {p p' : Point T B}
    (h : Step C i s p s' p') (hp : Left p') : holdsTasks p = true := by
  cases h <;> simp_all

/-- The points that belong to each kind of thread. -/
@[simp] def belongs : Thread m n → Point T B → Bool
  | .poster _, .idle => true
  | .poster _, .posting k _ => k.isNone
  | .poster _, _ => false
  | .worker _, .posting k _ => k.isSome
  | .worker _, .idle | .worker _, .alive | .worker _, .stopped | .worker _, .joining _
  | .worker _, .destroyed => false
  | .worker _, _ => true
  | .destroyer, .alive | .destroyer, .stopped | .destroyer, .joining _
  | .destroyer, .destroyed => true
  | .destroyer, _ => false

theorem step_belongs {i : Thread m n} {s s' : Shared m n T D} {p p' : Point T B}
    (h : Step C i s p s' p') (hp : belongs i p = true) : belongs i p' = true := by
  cases h with
  | postLock | postCount | postPush | postUnlock | postNotifyNobody | postNotifyOne
  | returnToPoster | returnToTask => cases i <;> simp_all
  | _ => simp_all

/-- What a thread may rely on where it stands. Past the wait a worker has seen an empty queue
or `M_stop`; with the mutex held the queue stays as it was seen. -/
@[simp] def Placed (s : Shared m n T D) : Point T B → Prop
  | .park => s.tasks ≠ []
  | .afterWait => s.tasks = [] ∨ s.stop = true
  | .skip => s.tasks = []
  | .leave => s.tasks = [] ∧ s.stop = true
  | .exited | .taken _ | .running _ _ | .posting (some _) _ | .lockCount | .testPositive
  | .decrement | .testZero | .testEmpty | .notifyIdle | .unlockCount | .stopped | .joining _
  | .destroyed => s.stop = true
  | .posting none _ | .idle | .lockTasks | .testPredicate | .parked | .alive => True

theorem step_placed {i : Thread m n} {s s' : Shared m n T D} {p p' : Point T B}
    (h : Step C i s p s' p') (hp : Placed s p) : Placed s' p' := by
  cases h with
  | postLock i s k | postCount i s k | postPush i s k | postUnlock i s k
  | postNotifyNobody i s k | postNotifyOne i s k => cases k <;> simp_all
  | predicateTrue w s h => simpa [waitPredicate] using h
  | predicateFalse w s h => simp_all [waitPredicate]
  | take w s t rest front => simpa [front] using hp
  | _ => simp_all

theorem step_placed_other {i : Thread m n} {s s' : Shared m n T D} {p p' q : Point T B}
    (h : Step C i s p s' p') (hmutex : holdsTasks p = true → holdsTasks q = false)
    (hq : Placed s q) : Placed s' q := by
  have hstop := step_stop h
  rcases step_tasks h with ht | hp
  · cases q with
    | afterWait => simpa [ht] using hq.imp_right hstop
    | posting k _ => cases k <;> simp_all
    | _ => simp_all
  · have hout := hmutex hp
    cases q with
    | posting k _ => cases k <;> simp_all
    | _ => simp_all

theorem step_waiters {i : Thread m n} {s s' : Shared m n T D} {p p' : Point T B}
    (h : Step C i s p s' p') (hi : i ∈ s.waiters → p = .parked) :
    i ∈ s'.waiters → p' = .parked := by
  cases h <;> simp_all

theorem step_waiters_other {i j : Thread m n} {s s' : Shared m n T D} {p p' : Point T B}
    (h : Step C i s p s' p') (hj : j ≠ i) : j ∈ s'.waiters → j ∈ s.waiters := by
  cases h <;> simp_all

/-- The task a thread has taken and not yet run to its end. -/
def current : Point T B → Multiset (Task T)
  | .taken t | .running t _ => {t}
  | .posting (some (t,_)) _ => {t}
  | _ => 0

/-- What one action does to the queue and the logs: nothing, one push at the back, one task
taken from the front, or one task run to its end. -/
inductive Traffic (s s' : Shared m n T D) (p p' : Point T B) : Prop
  | quiet (tasks : s'.tasks = s.tasks) (pushed : s'.pushed = s.pushed)
      (started : s'.started = s.started) (finished : s'.finished = s.finished)
      (current : current p' = current p)
  | push (x : T) (tasks : s'.tasks = s.tasks ++ [⟨s.pushed.length,x⟩])
      (pushed : s'.pushed = s.pushed ++ [⟨s.pushed.length,x⟩])
      (started : s'.started = s.started) (finished : s'.finished = s.finished)
      (current : current p' = current p)
  | take (t : Task T) (rest : List (Task T)) (front : s.tasks = t :: rest) (tasks : s'.tasks = rest)
      (pushed : s'.pushed = s.pushed) (started : s'.started = s.started ++ [t])
      (finished : s'.finished = s.finished) (place : p = .afterWait) (after : current p' = {t})
  | finish (t : Task T) (tasks : s'.tasks = s.tasks) (pushed : s'.pushed = s.pushed)
      (started : s'.started = s.started) (finished : s'.finished = s.finished ++ [t])
      (before : current p = {t}) (after : current p' = 0)

theorem step_traffic {i : Thread m n} {s s' : Shared m n T D} {p p' : Point T B}
    (h : Step C i s p s' p') : Traffic s s' p p' := by
  cases h with
  | postPush i s k x => exact .push x rfl rfl rfl rfl (by cases k <;> rfl)
  | take w s t rest front => exact .take t rest front rfl rfl rfl rfl rfl rfl
  | taskReturns w s t b h => exact .finish t rfl rfl rfl rfl rfl rfl
  | postLock i s k | postCount i s k | postUnlock i s k | postNotifyNobody i s k
  | postNotifyOne i s k => exact .quiet rfl rfl rfl rfl (by cases k <;> rfl)
  | _ => exact .quiet rfl rfl rfl rfl rfl

section Reachable

variable {ok : Guard (Thread m n) (Shared m n T D) (Point T B)} {c : State m n T B D}

theorem holdsTasks_iff (hc : Reach (pool C m n d₀).lts ok c) (i : Thread m n) :
    holdsTasks (c.pc i) = true ↔ c.shared.taskMutex = some i := by
  refine owner_invariant Shared.taskMutex holdsTasks ?_ step_taskMutex hc i
  rintro s pc ⟨rfl,rfl⟩
  exact ⟨rfl,fun i => by cases i <;> rfl⟩

theorem holdsCount_iff (hc : Reach (pool C m n d₀).lts ok c) (i : Thread m n) :
    holdsCount (c.pc i) = true ↔ c.shared.countMutex = some i := by
  refine owner_invariant Shared.countMutex holdsCount ?_ step_countMutex hc i
  rintro s pc ⟨rfl,rfl⟩
  exact ⟨rfl,fun i => by cases i <;> rfl⟩

theorem holdsTasks_unique (hc : Reach (pool C m n d₀).lts ok c) {i j : Thread m n}
    (hi : holdsTasks (c.pc i) = true) (hj : holdsTasks (c.pc j) = true) : i = j := by
  rw [holdsTasks_iff hc] at hi hj
  exact Option.some.inj (hi.symm.trans hj)

theorem belongs_pc (hc : Reach (pool C m n d₀).lts ok c) (i : Thread m n) :
    belongs i (c.pc i) = true := by
  refine local_invariant (Q := fun i _ p => belongs i p = true) ?_ ?_ ?_ hc i
  · rintro s pc ⟨rfl,rfl⟩ i
    cases i <;> rfl
  · intro c d i _ _ h hq
    exact step_belongs h (hq i)
  · intro c d i j _ _ _ _ hq
    exact hq j

theorem placed (hc : Reach (pool C m n d₀).lts ok c) (i : Thread m n) :
    Placed c.shared (c.pc i) := by
  refine local_invariant (Q := fun _ s p => Placed s p) ?_ ?_ ?_ hc i
  · rintro s pc ⟨rfl,rfl⟩ i
    cases i <;> trivial
  · intro c d i _ _ h hq
    exact step_placed h (hq i)
  · intro c d i j hj hc _ h hq
    refine step_placed_other h (fun hi => ?_) (hq j)
    by_contra hout
    exact hj (holdsTasks_unique hc (by simpa using hout) hi)

theorem parked_of_mem_waiters (hc : Reach (pool C m n d₀).lts ok c) {i : Thread m n}
    (hi : i ∈ c.shared.waiters) : c.pc i = .parked := by
  refine local_invariant (Q := fun i s p => i ∈ s.waiters → p = .parked) ?_ ?_ ?_ hc i hi
  · rintro s pc ⟨rfl,rfl⟩ i hi
    simp [startShared] at hi
  · intro c d i _ _ h hq
    exact step_waiters h (hq i)
  · intro c d i j hj _ _ h hq hi
    exact hq j (step_waiters_other h hj hi)

theorem pushed_tickets (hc : Reach (pool C m n d₀).lts ok c) :
    c.shared.pushed.map Task.ticket = List.range c.shared.pushed.length := by
  refine hc.invariant
    (I := fun c => c.shared.pushed.map Task.ticket = List.range c.shared.pushed.length) ?_ ?_
  · rintro c ⟨hs,-⟩
    simp [hs,startShared]
  · rintro c i d - hi - ⟨h,-⟩
    rcases step_traffic h with ⟨-,hp,-⟩ | ⟨x,-,hp,-⟩ | ⟨t,rest,-,-,hp,-⟩ | ⟨t,-,hp,-⟩
    · rw [hp,hi]
    · simp [hp,hi,List.range_succ]
    · rw [hp,hi]
    · rw [hp,hi]

theorem ticket_lt_of_mem_pushed (hc : Reach (pool C m n d₀).lts ok c) {t : Task T}
    (ht : t ∈ c.shared.pushed) : t.ticket < c.shared.pushed.length := by
  have hmem : t.ticket ∈ c.shared.pushed.map Task.ticket := List.mem_map_of_mem ht
  rwa [pushed_tickets hc,List.mem_range] at hmem

/-- The pool seen as a dispatcher. -/
def jobs (c : State m n T B D) : Dispatch.Board (Task T) where
  submitted := c.shared.pushed
  queue := c.shared.tasks
  taken := c.shared.started
  running := ∑ i, current (c.pc i)
  completed := c.shared.finished

/-- The pool refines a dispatcher that takes its jobs in order, each once. -/
theorem pool_refines_board (C : Calls T B D) (d₀ : D)
    (ok : Guard (Thread m n) (Shared m n T D) (Point T B)) :
    Refines (pool C m n d₀).lts ok (Dispatch.board (Task T)) jobs where
  init c := by
    rintro ⟨hs,hp⟩
    have hnone : ∑ i : Thread m n, current (startPoint i : Point T B) = 0 :=
      Finset.sum_eq_zero fun i _ => by cases i <;> rfl
    simp [jobs,hs,hp,hnone,startShared,Dispatch.board]
  step {c i d} hc hok h := by
    obtain ⟨hstep,hframe⟩ := h
    have hsum := sum_move (fun _ => current) hframe
    rcases step_traffic hstep with ⟨ht,hp,hs,hf,hcur⟩ | ⟨x,ht,hp,hs,hf,hcur⟩ |
      ⟨t,rest,hfront,ht,hp,hs,hf,hplace,hafter⟩ | ⟨t,ht,hp,hs,hf,hbefore,hafter⟩
    · left
      rw [hcur] at hsum
      simp [jobs,ht,hp,hs,hf,add_right_cancel hsum]
    · right
      rw [hcur] at hsum
      have hfresh : (⟨c.shared.pushed.length,x⟩ : Task T) ∉ (jobs c).submitted :=
        fun hmem => absurd (ticket_lt_of_mem_pushed hc hmem) (lt_irrefl _)
      refine ⟨.submit ⟨c.shared.pushed.length,x⟩,?_⟩
      have hjobs : jobs d = { jobs c with
          submitted := (jobs c).submitted ++ [⟨c.shared.pushed.length,x⟩]
          queue := (jobs c).queue ++ [⟨c.shared.pushed.length,x⟩] } := by
        simp [jobs,ht,hp,hs,hf,add_right_cancel hsum]
      exact hjobs ▸ .submit _ _ hfresh
    · right
      have hbefore : current (c.pc i) = 0 := by rw [hplace]; rfl
      rw [hbefore,hafter,add_zero,add_comm] at hsum
      refine ⟨.take t,?_⟩
      have hjobs : jobs d = { jobs c with
          queue := rest, taken := (jobs c).taken ++ [t], running := t ::ₘ (jobs c).running } := by
        simp [jobs,ht,hp,hs,hf,hsum]
      exact hjobs ▸ .take _ _ _ hfront
    · right
      rw [hbefore,hafter,add_zero,add_comm] at hsum
      refine ⟨.complete t,?_⟩
      have hjobs : jobs d = { jobs c with
          running := (jobs d).running, completed := t ::ₘ (jobs c).completed } := by
        simp only [jobs,ht,hp,hs,hf,Multiset.cons_coe]
        congr 1
        exact Multiset.coe_eq_coe.mpr (List.perm_append_singleton t _)
      exact hjobs ▸ .complete _ _ _ hsum.symm

theorem jobs_accounted (hc : Reach (pool C m n d₀).lts ok c) : Dispatch.Accounted (jobs c) :=
  Dispatch.accounted ((pool_refines_board C d₀ ok).reach hc)

end Reachable
end SqlThread
end AlephSql
