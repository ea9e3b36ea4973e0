import AlephSql.PoolInvariant
import AlephSql.Stall

/-! Shutdown drains the queue. Workers leave one by one as they find it empty, while others
may still be running tasks that post more; whoever posts is still there to take it. -/
namespace AlephSql
namespace SqlThread

open Transition Interleave

variable {m n : ℕ} {T B D : Type} {C : Calls T B D} {d₀ : D}

/-- Runs in which the posts from outside the pool have returned when `~sql_thread` starts, and
none begins afterwards. -/
def PostsBeforeShutdown : Guard (Thread m n) (Shared m n T D) (Point T B) := fun c i _ =>
  (i = .destroyer → c.pc i = .alive → ∀ j, c.pc (.poster j) = .idle) ∧
  (∀ j, i = .poster j → c.pc i = .idle → c.pc .destroyer = .alive)

/-- How often the task pushed as number `k` has been taken to be called. -/
def timesRun (c : State m n T B D) (k : ℕ) : ℕ := (c.shared.started.map Task.ticket).count k

def timesFinished (c : State m n T B D) (k : ℕ) : ℕ :=
  (c.shared.finished.map Task.ticket).count k

section AnyRun

variable {ok : Guard (Thread m n) (Shared m n T D) (Point T B)} {c : State m n T B D}

theorem started_le_pushed (hc : Reach (pool C m n d₀).lts ok c) :
    c.shared.started <+: c.shared.pushed :=
  ⟨c.shared.tasks,(jobs_accounted hc).order.symm⟩

theorem started_tickets_nodup (hc : Reach (pool C m n d₀).lts ok c) :
    (c.shared.started.map Task.ticket).Nodup := by
  have hpushed : (c.shared.pushed.map Task.ticket).Nodup := by
    rw [pushed_tickets hc]
    exact List.nodup_range
  exact hpushed.sublist ((started_le_pushed hc).sublist.map _)

theorem timesRun_le_one (hc : Reach (pool C m n d₀).lts ok c) (k : ℕ) : timesRun c k ≤ 1 :=
  List.nodup_iff_count_le_one.mp (started_tickets_nodup hc) k

theorem timesFinished_le_timesRun (hc : Reach (pool C m n d₀).lts ok c) (k : ℕ) :
    timesFinished c k ≤ timesRun c k := by
  have hle := Multiset.map_le_map (f := Task.ticket) (jobs_accounted hc).completed_le
  simpa [timesFinished,timesRun,jobs] using Multiset.count_le_of_le k hle

theorem finished_of_drained (hc : Reach (pool C m n d₀).lts ok c) (hempty : c.shared.tasks = [])
    (hidle : ∀ i, current (c.pc i) = 0) : c.shared.finished.Perm c.shared.pushed := by
  have hfinished : (c.shared.finished : Multiset (Task T)) = c.shared.pushed :=
    (jobs_accounted hc).drained hempty (by simp [jobs,hidle])
  exact Multiset.coe_eq_coe.mp hfinished

theorem once_of_drained (hc : Reach (pool C m n d₀).lts ok c) (hempty : c.shared.tasks = [])
    (hidle : ∀ i, current (c.pc i) = 0) {k : ℕ} (hk : k < c.shared.pushed.length) :
    timesRun c k = 1 ∧ timesFinished c k = 1 := by
  have hone : (c.shared.pushed.map Task.ticket).count k = 1 := by
    rw [pushed_tickets hc]
    exact List.count_eq_one_of_mem List.nodup_range (List.mem_range.mpr hk)
  have hstarted : c.shared.started = c.shared.pushed := by
    simpa [jobs,hempty] using (jobs_accounted hc).order.symm
  refine ⟨by rw [timesRun,hstarted,hone],?_⟩
  have hperm := (finished_of_drained hc hempty hidle).map Task.ticket
  rw [timesFinished,hperm.count_eq,hone]

theorem running_stop_unset (hc : Reach (pool C m n d₀).lts ok c)
    (h : c.pc .destroyer = .alive) : c.shared.stop = false := by
  revert h
  refine hc.invariant
    (I := fun c => c.pc .destroyer = .alive → c.shared.stop = false) ?_ ?_
  · rintro c ⟨hs,-⟩ -
    simp [hs,startShared]
  · rintro c i d hc hi - ⟨hstep,hframe⟩ hd
    by_cases hdes : i = .destroyer
    · subst hdes
      rw [hd] at hstep
      generalize c.shared = s at hstep
      generalize c.pc .destroyer = p at hstep
      generalize d.shared = s' at hstep
      cases hstep
    · have hstop := hi (hframe .destroyer (Ne.symm hdes) ▸ hd)
      exact (step_stop_other hstep hdes).trans hstop

theorem stop_of_left (hc : Reach (pool C m n d₀).lts ok c) {i : Thread m n}
    (hi : Left (c.pc i)) : c.shared.stop = true := by
  have hplaced := placed hc i
  generalize c.pc i = p at hi hplaced
  cases p <;> simp_all

theorem current_of_exited (hc : Reach (pool C m n d₀).lts ok c)
    (hexit : ∀ w : Fin n, c.pc (.worker w) = .exited) (i : Thread m n) : current (c.pc i) = 0 := by
  have hbelongs := belongs_pc hc i
  cases i with
  | worker w => rw [hexit w]; rfl
  | poster j =>
    generalize c.pc (.poster j) = p at hbelongs
    cases p with
    | posting k p => cases k <;> simp_all [current]
    | _ => simp_all [current]
  | destroyer =>
    generalize c.pc .destroyer = p at hbelongs
    cases p <;> simp_all [current]

end AnyRun

section Shutdown

variable {c : State m n T B D}

theorem posters_idle (hc : Reach (pool C m n d₀).lts PostsBeforeShutdown c)
    (h : c.pc .destroyer ≠ .alive) (j : Fin m) : c.pc (.poster j) = .idle := by
  revert h j
  refine hc.invariant
    (I := fun c => c.pc .destroyer ≠ .alive → ∀ j, c.pc (.poster j) = .idle) ?_ ?_
  · rintro c ⟨-,hp⟩ h
    simp [hp,startPoint] at h
  · rintro c i d hc hidle ⟨hstart,hlate⟩ ⟨hstep,hframe⟩ hd j
    by_cases halive : c.pc .destroyer = .alive
    · -- the step is the start of `~sql_thread`
      have hi : i = .destroyer := by
        by_contra hne
        exact hd ((hframe .destroyer (Ne.symm hne)).trans halive)
      subst hi
      exact (hframe _ (by simp)).trans (hstart rfl halive j)
    · have hj := hidle halive j
      by_cases hij : i = .poster j
      · exact absurd (hlate j hij (hij ▸ hj)) halive
      · exact (hframe _ (Ne.symm hij)).trans hj

/-- Tasks in the queue are never left without a worker. -/
theorem worker_of_tasks (hn : 0 < n) (hc : Reach (pool C m n d₀).lts PostsBeforeShutdown c)
    (h : c.shared.tasks ≠ []) : ∃ w : Fin n, ¬Left (c.pc (.worker w)) := by
  revert h
  refine hc.invariant
    (I := fun c => c.shared.tasks ≠ [] → ∃ w : Fin n, ¬Left (c.pc (.worker w))) ?_ ?_
  · rintro c ⟨hs,-⟩ h
    simp [hs,startShared] at h
  · intro c i d hc hw hok h hd
    have hreach : Reach (pool C m n d₀).lts PostsBeforeShutdown d := .step hc hok h
    by_cases hempty : c.shared.tasks = []
    · obtain ⟨k,hpush⟩ := step_grows h.1 hempty hd
      have hbelongs := belongs_pc hreach i
      rw [hpush] at hbelongs
      cases i with
      | worker w => exact ⟨w,by simp [hpush]⟩
      | poster j =>
        -- a post from outside finds `~sql_thread` not begun, so nobody has left
        have halive : d.pc .destroyer = .alive := by
          by_contra hne
          have hidle := posters_idle hreach hne j
          simp [hpush] at hidle
        refine ⟨⟨0,hn⟩,fun hleft => ?_⟩
        have hstop := stop_of_left hreach hleft
        simp [running_stop_unset hreach halive] at hstop
      | destroyer => simp at hbelongs
    · obtain ⟨w,hin⟩ := hw hempty
      refine ⟨w,fun hleft => ?_⟩
      by_cases hi : .worker w = i
      · subst hi
        exact hempty ((step_left h.1 hleft).resolve_left hin).2
      · exact hin (h.2 _ hi ▸ hleft)

theorem tasks_of_exited (hn : 0 < n)
    (hc : Reach (pool C m n d₀).lts PostsBeforeShutdown c)
    (hexit : ∀ w : Fin n, c.pc (.worker w) = .exited) : c.shared.tasks = [] := by
  by_contra hne
  obtain ⟨w,hw⟩ := worker_of_tasks hn hc hne
  simp [hexit w] at hw

theorem postsReturned_of_exited (hn : 0 < n)
    (hc : Reach (pool C m n d₀).lts PostsBeforeShutdown c)
    (hexit : ∀ w : Fin n, c.pc (.worker w) = .exited) : PostsReturned c := by
  have hstarted : c.pc .destroyer ≠ .alive := fun halive => by
    have hstop := stop_of_left (i := .worker ⟨0,hn⟩) hc (by simp [hexit])
    simp [running_stop_unset hc halive] at hstop
  intro i k p hi
  have hbelongs := belongs_pc hc i
  cases i with
  | worker w => simp [hexit w] at hi
  | poster j => simp [posters_idle hc hstarted j] at hi
  | destroyer => simp [hi] at hbelongs

end Shutdown

/-- With the posts from outside complete before `~sql_thread` starts, every task is run at most
once, and once all workers have exited every task ever posted has been run exactly once. -/
theorem shutdown_drains_once (C : Calls T B D) (m n : ℕ) (d₀ : D) (hn : 0 < n)
    (c : State m n T B D) (hc : Reach (pool C m n d₀).lts PostsBeforeShutdown c) :
    (∀ k, timesRun c k ≤ 1 ∧ timesFinished c k ≤ timesRun c k) ∧
    ((∀ w : Fin n, c.pc (.worker w) = .exited) → c.shared.tasks = [] ∧ PostsReturned c ∧
      ∀ k < c.shared.pushed.length, timesRun c k = 1 ∧ timesFinished c k = 1) := by
  refine ⟨fun k => ⟨timesRun_le_one hc k,timesFinished_le_timesRun hc k⟩,fun hexit => ?_⟩
  have hempty := tasks_of_exited hn hc hexit
  refine ⟨hempty,postsReturned_of_exited hn hc hexit,fun k hk => ?_⟩
  exact once_of_drained hc hempty (current_of_exited hc hexit) hk

section Alone

theorem finish_alone (C : Calls T B D) (d₀ : D) (w : Fin n) (s : Shared m n T D)
    (hfree : s.countMutex = none) : ∃ z W, Alone (pool C m n d₀) (.worker w) (s,.lockCount)
      ({ s with runningCount := z, waiters := W },.lockTasks) := by
  have hlock := alone_next (P := pool C m n d₀) .refl (Step.lockCount w s hfree)
  obtain ⟨z,htest⟩ : ∃ z, Alone (pool C m n d₀) (.worker w) (s,.lockCount)
      ({ s with countMutex := some (.worker w), runningCount := z },.testZero) := by
    by_cases hpos : 0 < s.runningCount
    · exact ⟨_,alone_next (alone_next hlock (Step.positive w _ hpos)) (Step.decrement w _)⟩
    · exact ⟨_,alone_next hlock (Step.notPositive w _ hpos)⟩
  obtain ⟨W,hdone⟩ : ∃ W, Alone (pool C m n d₀) (.worker w) (s,.lockCount)
      ({ s with countMutex := some (.worker w), runningCount := z, waiters := W },
        .unlockCount) := by
    by_cases hzero : z = 0
    · have hempty := alone_next htest (Step.zero w _ hzero)
      by_cases hq : s.tasks = []
      · exact ⟨_,alone_next (alone_next hempty (Step.empty w _ hq)) (Step.notifyIdle w _)⟩
      · exact ⟨_,alone_next hempty (Step.notEmpty w _ hq)⟩
    · exact ⟨_,alone_next htest (Step.notZero w _ hzero)⟩
  exact ⟨z,W,by simpa [hfree] using alone_next hdone (Step.unlockCount w _)⟩

theorem serve_body_alone (C : Calls T B D) (d₀ : D) (w : Fin n) {s u : Shared m n T D} {t : Task T}
    {rest : List (Task T)} {b : B} (hstop : s.stop = true) (htask : s.taskMutex = none)
    (hfront : s.tasks = t :: rest)
    (hbody : Alone (pool C m n d₀) (.worker w)
      ({ s with tasks := rest, started := s.started ++ [t] },.running t (C.call t))
      (u,.running t b))
    (hret : C.returned b) (hcount : u.countMutex = none) :
    ∃ z W, Alone (pool C m n d₀) (.worker w) (s,.lockTasks)
      ({ u with finished := u.finished ++ [t], runningCount := z, waiters := W },.lockTasks) := by
  have hlock := alone_next (P := pool C m n d₀) .refl (Step.lockTasks w s htask)
  have hpass := alone_next hlock (Step.predicateTrue w _ (by simp [waitPredicate,hstop]))
  have htake := alone_next hpass (Step.take w _ t rest hfront)
  have hcall := alone_next htake (Step.taken w _ t)
  simp only [← htask] at hcall
  have hdone := alone_next (hcall.trans hbody) (Step.taskReturns w _ t _ hret)
  obtain ⟨z,W,hnext⟩ := finish_alone C d₀ w { u with finished := u.finished ++ [t] } hcount
  exact ⟨z,W,hdone.trans hnext⟩

theorem serve_alone (C : Calls T B D) (d₀ : D) (w : Fin n) (s : Shared m n T D) (t : Task T)
    (rest : List (Task T)) (hstop : s.stop = true) (htask : s.taskMutex = none)
    (hcount : s.countMutex = none) (hfront : s.tasks = t :: rest) (hret : C.returned (C.call t)) :
    ∃ z W, Alone (pool C m n d₀) (.worker w) (s,.lockTasks)
      ({ s with tasks := rest, started := s.started ++ [t], finished := s.finished ++ [t],
                runningCount := z, waiters := W },.lockTasks) :=
  serve_body_alone C d₀ w hstop htask hfront .refl hret hcount

theorem repost_alone (C : Calls T B D) (d₀ : D) (w : Fin n) (s : Shared m n T D) (t : Task T)
    {b b' : B} {x : T} (h : C.post b x b') (hfree : s.taskMutex = none)
    (hnobody : s.waiters = ∅) :
    Alone (pool C m n d₀) (.worker w) (s,.running t b)
      ({ s with runningCount := wrapInt (s.runningCount+1)
                tasks := s.tasks ++ [⟨s.pushed.length,x⟩]
                pushed := s.pushed ++ [⟨s.pushed.length,x⟩] },.running t b') := by
  have hcall := alone_next (P := pool C m n d₀) .refl (Step.taskPosts w s t b x b' h)
  have hpush := push_alone C (.worker w) s (some (t,b')) x hfree hnobody d₀
  exact alone_next (hcall.trans hpush) (Step.returnToTask _ _ t b')

theorem drain_alone (C : Calls T B D) (d₀ : D) (w : Fin n) (s : Shared m n T D)
    (hstop : s.stop = true) (htask : s.taskMutex = none) (hcount : s.countMutex = none)
    (hret : ∀ t ∈ s.tasks, C.returned (C.call t)) :
    ∃ s', Alone (pool C m n d₀) (.worker w) (s,.lockTasks) (s',.exited) ∧
      s'.pushed = s.pushed := by
  generalize hq : s.tasks = q at hret
  induction q generalizing s with
  | nil =>
    have hlock := alone_next (P := pool C m n d₀) .refl (Step.lockTasks w s htask)
    have hpass := alone_next hlock (Step.predicateTrue w _ (by simp [waitPredicate,hstop]))
    have hstay := alone_next hpass (Step.stopEmpty w _ hq hstop)
    exact ⟨_,alone_next hstay (Step.leave w _),rfl⟩
  | cons t rest ih =>
    obtain ⟨z,W,hserve⟩ := serve_alone C d₀ w s t rest hstop htask hcount hq
      (hret t (by simp))
    obtain ⟨s',hdrain,hpushed⟩ := ih { s with
        tasks := rest, started := s.started ++ [t], finished := s.finished ++ [t],
        runningCount := z, waiters := W }
      hstop htask hcount rfl fun u hu => hret u (by simp [hu])
    exact ⟨s',hserve.trans hdrain,hpushed⟩

end Alone

theorem onePost_drained : ∃ c : State 1 1 Unit Unit Unit,
    Reach (pool returnAtOnce 1 1 ()).lts PostsBeforeShutdown c ∧
      (∀ w : Fin 1, c.pc (.worker w) = .exited) ∧ c.shared.pushed = [⟨0,()⟩] := by
  have hpost : Reach (pool returnAtOnce 1 1 ()).lts PostsBeforeShutdown onePost :=
    onePost_reach fun d e halive => ⟨by simp,fun _ _ _ => halive⟩
  have hstore := reach_move hpost .destroyer (Step.storeStop (C := returnAtOnce) _)
    ⟨fun _ _ _ => rfl,by simp⟩
  obtain ⟨s',hdrain,hpushed⟩ := drain_alone returnAtOnce () (0 : Fin 1)
    { onePost.shared with stop := true } rfl rfl rfl fun _ _ => trivial
  set stopped := onePost.move .destroyer { onePost.shared with stop := true } .stopped
  have hrun : Continues (pool returnAtOnce 1 1 ()).lts PostsBeforeShutdown _ _ :=
    continues_alone hdrain stopped fun d e _ => ⟨by simp,by simp⟩
  have hback : stopped.move (.worker 0) { onePost.shared with stop := true } .lockTasks =
      stopped := Config.move_pc stopped (.worker 0) stopped.shared
  rw [hback] at hrun
  refine ⟨_,hstore.continues hrun,fun w => ?_,hpushed⟩
  rw [Subsingleton.elim w 0]
  exact Config.move_self _ _ _ _

theorem shutdown_drains_once_one_task : ∃ c : State 1 1 Unit Unit Unit,
    (∀ w : Fin 1, c.pc (.worker w) = .exited) ∧ c.shared.tasks = [] ∧
      timesRun c 0 = 1 ∧ timesFinished c 0 = 1 := by
  obtain ⟨c,hc,hexit,hpushed⟩ := onePost_drained
  obtain ⟨-,hdrained⟩ := shutdown_drains_once returnAtOnce 1 1 () (by decide) c hc
  obtain ⟨hempty,-,honce⟩ := hdrained hexit
  exact ⟨c,hexit,hempty,honce 0 (by simp [hpushed])⟩

end SqlThread
end AlephSql
