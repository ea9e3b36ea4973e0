import AlephSql.PoolInvariant

/-! The wait of the worker loop. Its predicate lets a worker through when the queue is empty
and keeps it parked when there is work, so a running pool never takes a task. -/
namespace AlephSql
namespace SqlThread

open Transition Interleave

variable {m n : ℕ} {T B D : Type} {C : Calls T B D} {d₀ : D}

/-- Every call of `post_new_task` has returned. -/
def PostsReturned (c : State m n T B D) : Prop := ∀ i k p, c.pc i ≠ .posting k p

/-- Steps of workers that begin no new post. None of them stores `M_stop`. -/
def byWorkers : Guard (Thread m n) (Shared m n T D) (Point T B) :=
  fun _ i d => (∃ w, i = .worker w) ∧ ∀ k x, d.pc i ≠ .posting k (.lock x)

/-- Worker steps lead to a state in which a worker removes the front task. -/
def Served (C : Calls T B D) (d₀ : D) (c : State m n T B D) : Prop :=
  ∃ e f w t rest, Continues (pool C m n d₀).lts byWorkers c e ∧
    c.shared.tasks = t :: rest ∧ e.shared.tasks = t :: rest ∧
    (pool C m n d₀).lts.step e (.worker w) f ∧ f.shared.tasks = rest

/-- A worker is let through `M_condition_variable.wait`. -/
def LetThrough (C : Calls T B D) (d₀ : D) (c : State m n T B D) (w : Fin n)
    (d : State m n T B D) : Prop :=
  (pool C m n d₀).lts.step c (.worker w) d ∧ c.pc (.worker w) = .testPredicate ∧
    d.pc (.worker w) = .afterWait

/-- The pool never stalls with work queued. -/
structure NeverStalls (C : Calls T B D) (m n : ℕ) (d₀ : D) : Prop where
  served : ∀ c : State m n T B D, Reachable (pool C m n d₀).lts c → c.shared.stop = false →
    c.shared.tasks ≠ [] → PostsReturned c → Served C d₀ c
  passes : ∀ (c : State m n T B D) w d, Reachable (pool C m n d₀).lts c → LetThrough C d₀ c w d →
    c.shared.stop = false → c.shared.tasks ≠ []

theorem no_take_before_stop {ok : Guard (Thread m n) (Shared m n T D) (Point T B)}
    {c d : State m n T B D} (hc : Reach (pool C m n d₀).lts ok c) {i : Thread m n}
    (h : (pool C m n d₀).lts.step c i d) (hstop : c.shared.stop = false) {t : Task T}
    {rest : List (Task T)} (hfront : c.shared.tasks = t :: rest) : d.shared.tasks ≠ rest := by
  intro hrest
  rcases step_traffic h.1 with ⟨ht,-⟩ | ⟨x,ht,-⟩ | ⟨-,-,-,-,-,-,-,hplace,-⟩ | ⟨-,ht,-⟩
  · simp [ht,hfront] at hrest
  · have hlength := congrArg List.length (ht.symm.trans hrest)
    simp only [hfront,List.length_append,List.length_cons,List.length_nil] at hlength
    omega
  · -- a worker past the wait has seen an empty queue or `M_stop`
    have hplaced := placed hc i
    simp [hplace,hfront,hstop] at hplaced
  · simp [ht,hfront] at hrest

theorem stop_of_byWorkers {c d : State m n T B D} {i : Thread m n} (hok : byWorkers c i d)
    (h : (pool C m n d₀).lts.step c i d) (hstop : c.shared.stop = false) :
    d.shared.stop = false := by
  obtain ⟨⟨w,rfl⟩,-⟩ := hok
  exact (step_stop_other h.1 (by simp)).trans hstop

theorem not_served {c : State m n T B D} (hc : Reachable (pool C m n d₀).lts c)
    (hstop : c.shared.stop = false) : ¬Served C d₀ c := by
  rintro ⟨e,f,w,t,rest,hpath,-,hfront,hstep,hrest⟩
  have he : Reachable (pool C m n d₀).lts e :=
    hc.continues (hpath.mono fun _ _ _ _ => trivial)
  have hstop' : e.shared.stop = false :=
    hpath.invariant (I := fun c => c.shared.stop = false)
      (fun hs hok h => stop_of_byWorkers hok h hs) hstop
  exact no_take_before_stop he hstep hstop' hfront hrest

theorem empty_of_letThrough {c d : State m n T B D} {w : Fin n} (h : LetThrough C d₀ c w d)
    (hstop : c.shared.stop = false) : c.shared.tasks = [] := by
  obtain ⟨⟨hstep,-⟩,hp,hp'⟩ := h
  rw [hp,hp'] at hstep
  generalize d.shared = s' at hstep
  cases hstep with
  | predicateTrue _ _ h => simpa [waitPredicate,hstop] using h

/-- The first worker to look finds the queue empty and is let through. -/
theorem letThrough_at_start (C : Calls T B D) (m : ℕ) (d₀ : D) (hn : 0 < n) :
    ∃ (c : State m n T B D) (w : Fin n) (d : State m n T B D),
      Reachable (pool C m n d₀).lts c ∧ LetThrough C d₀ c w d ∧ c.shared.stop = false ∧
        c.shared.tasks = [] := by
  let w : Fin n := ⟨0,hn⟩
  let start : State m n T B D := ⟨startShared d₀,startPoint⟩
  have hstart : Reachable (pool C m n d₀).lts start := .init ⟨rfl,rfl⟩
  have hlock := reach_move hstart (.worker w) (Step.lockTasks w _ rfl) trivial
  set locked := start.move (.worker w) _ _ with hlocked
  have hpc : locked.pc (.worker w) = .testPredicate := by simp [hlocked]
  have htest : (pool C m n d₀).step (.worker w) locked.shared (locked.pc (.worker w))
      locked.shared .afterWait := by
    rw [hpc]
    exact .predicateTrue w _ rfl
  exact ⟨locked,w,locked.move (.worker w) _ _,hlock,
    ⟨Threads.step_move htest,hpc,by simp⟩,rfl,rfl⟩

/-- No pool with a worker meets the promise. In every reachable state with `M_stop` unset and
tasks queued, no steps of the workers remove the front task, and every worker let through the
wait with `M_stop` unset has found the queue empty. -/
theorem sql_thread_stalls (C : Calls T B D) (m : ℕ) (d₀ : D) (hn : 0 < n) :
    ¬NeverStalls C m n d₀ ∧
    (∀ c : State m n T B D, Reachable (pool C m n d₀).lts c → c.shared.stop = false →
      c.shared.tasks ≠ [] → PostsReturned c → ¬Served C d₀ c) ∧
    (∀ (c : State m n T B D) w d, Reachable (pool C m n d₀).lts c → LetThrough C d₀ c w d →
      c.shared.stop = false → c.shared.tasks = []) := by
  refine ⟨fun h => ?_,fun c hc hstop _ _ => not_served hc hstop,
    fun c w d _ h hstop => empty_of_letThrough h hstop⟩
  obtain ⟨c,w,d,hc,hlet,hstop,hempty⟩ := letThrough_at_start C m d₀ hn
  exact h.passes c w d hc hlet hstop hempty

theorem sql_thread_stalls_one_worker :
    ¬NeverStalls returnAtOnce 1 1 () ∧
    (∀ c : State 1 1 Unit Unit Unit, Reachable (pool returnAtOnce 1 1 ()).lts c →
      c.shared.stop = false → c.shared.tasks ≠ [] → PostsReturned c → ¬Served returnAtOnce () c) ∧
    (∀ (c : State 1 1 Unit Unit Unit) w d, Reachable (pool returnAtOnce 1 1 ()).lts c →
      LetThrough returnAtOnce () c w d → c.shared.stop = false → c.shared.tasks = []) :=
  sql_thread_stalls returnAtOnce 1 () (by decide)

/-- One worker, one task posted and its post returned: the task stays in the queue. -/
theorem posted_task_not_served :
    ¬NeverStalls returnAtOnce 1 1 () ∧
    ∃ c : State 1 1 Unit Unit Unit, Reachable (pool returnAtOnce 1 1 ()).lts c ∧
      c.shared.stop = false ∧ c.shared.tasks = [⟨0,()⟩] ∧ PostsReturned c ∧
      ¬Served returnAtOnce () c := by
  have hreturned : PostsReturned onePost := by
    intro i k p
    cases i <;> simp [onePost,startPoint]
  have hnot : ¬Served returnAtOnce () onePost := not_served onePost_reachable rfl
  refine ⟨fun h => ?_,onePost,onePost_reachable,rfl,rfl,hreturned,hnot⟩
  exact hnot (h.served onePost onePost_reachable rfl (by simp [onePost]) hreturned)

end SqlThread
end AlephSql
