import AlephSql.Drain

/-! Posts that come too late. Nothing keeps a thread outside from posting while `~sql_thread` runs;
what becomes of its tasks depends on whether a worker is left. -/
namespace AlephSql
namespace SqlThread

open Transition Interleave

variable {m n : ℕ} {T B D : Type} {C : Calls T B D} {d₀ : D}

/-- All workers have left their loops. -/
def Deserted (c : State m n T B D) : Prop := ∀ w : Fin n, c.pc (.worker w) = .exited

/-- Between `c` and `d` tasks have been queued at most: nothing has been taken, run or changed. -/
structure QueuedOnly (c d : State m n T B D) : Prop where
  data : d.shared.data = c.shared.data
  started : d.shared.started = c.shared.started
  finished : d.shared.finished = c.shared.finished
  late : ∃ late, d.shared.tasks = c.shared.tasks ++ late ∧
    d.shared.pushed = c.shared.pushed ++ late

theorem QueuedOnly.trans {c d e : State m n T B D} (h : QueuedOnly c d) (h' : QueuedOnly d e) :
    QueuedOnly c e where
  data := h'.data.trans h.data
  started := h'.started.trans h.started
  finished := h'.finished.trans h.finished
  late := by
    obtain ⟨late,htasks,hpushed⟩ := h.late
    obtain ⟨late',htasks',hpushed'⟩ := h'.late
    refine ⟨late ++ late',?_,?_⟩
    · rw [htasks',htasks,List.append_assoc]
    · rw [hpushed',hpushed,List.append_assoc]

section Steps

variable {ok : Guard (Thread m n) (Shared m n T D) (Point T B)} {c d e : State m n T B D}
  {i : Thread m n} {s s' : Shared m n T D} {p p' : Point T B}

theorem step_outside (h : Step C i s p s' p') (hi : ∀ w, i ≠ .worker w) :
    s'.data = s.data ∧ s'.started = s.started ∧ s'.finished = s.finished ∧
      ∃ late, s'.tasks = s.tasks ++ late ∧ s'.pushed = s.pushed ++ late := by
  cases h with
  | postPush i s k x => exact ⟨rfl,rfl,rfl,_,rfl,rfl⟩
  | act w | take w | taskReturns w => exact absurd rfl (hi w)
  | _ => exact ⟨rfl,rfl,rfl,[],by simp,by simp⟩

theorem step_exited (h : Step C i s .exited s' p') : False := by
  cases h

theorem deserted_step (hc : Deserted c) (h : (pool C m n d₀).lts.step c i d) :
    Deserted d ∧ QueuedOnly c d := by
  obtain ⟨hstep,hframe⟩ := h
  have hi : ∀ w, i ≠ .worker w := by
    rintro w rfl
    have hstay : Step C (.worker w) c.shared (c.pc (.worker w)) d.shared (d.pc (.worker w)) := hstep
    rw [hc w] at hstay
    exact step_exited hstay
  obtain ⟨hdata,hstarted,hfinished,hlate⟩ := step_outside hstep hi
  exact ⟨fun w => (hframe _ (Ne.symm (hi w))).trans (hc w),hdata,hstarted,hfinished,hlate⟩

theorem deserted_continues (hc : Deserted c) (h : Continues (pool C m n d₀).lts ok c d) :
    Deserted d ∧ QueuedOnly c d := by
  refine h.invariant (I := fun d => Deserted d ∧ QueuedOnly c d) ?_
    ⟨hc,rfl,rfl,rfl,[],by simp,by simp⟩
  rintro d i e ⟨hd,hqueued⟩ - hstep
  obtain ⟨he,hmore⟩ := deserted_step hd hstep
  exact ⟨he,hqueued.trans hmore⟩

theorem step_leaves (h : Step C i s p s' p') (hp : p ≠ .exited) (hp' : p' = .exited) :
    p = .leave ∧ s'.tasks = s.tasks := by
  cases h with
  | leave w => exact ⟨rfl,rfl⟩
  | _ => cases hp'

/-- When the last worker leaves, nothing is queued. -/
theorem tasks_of_last_leave (hc : Reach (pool C m n d₀).lts ok c)
    (h : (pool C m n d₀).lts.step c i d) (hbefore : ¬Deserted c) (hafter : Deserted d) :
    d.shared.tasks = [] := by
  obtain ⟨hstep,hframe⟩ := h
  obtain ⟨w,hw⟩ := not_forall.mp hbefore
  obtain rfl : i = .worker w := by
    by_contra hne
    exact hw ((hframe _ (Ne.symm hne)).symm.trans (hafter w))
  obtain ⟨hleave,htasks⟩ := step_leaves hstep hw (hafter w)
  have hplaced := placed hc (.worker w)
  rw [hleave] at hplaced
  exact htasks.trans hplaced.1

end Steps

theorem last_leave_divides (C : Calls T B D) (m n : ℕ) (d₀ : D) (c d e : State m n T B D)
    (i : Thread m n) (hc : Reachable (pool C m n d₀).lts c)
    (hstep : (pool C m n d₀).lts.step c i d) (hbefore : ¬Deserted c) (hafter : Deserted d)
    (he : Continues (pool C m n d₀).lts anyStep d e) :
    e.shared.started = d.shared.pushed ∧ e.shared.finished.Perm d.shared.pushed ∧
      e.shared.pushed = d.shared.pushed ++ e.shared.tasks ∧ e.shared.data = d.shared.data := by
  have hd : Reachable (pool C m n d₀).lts d := hc.step trivial hstep
  have hempty := tasks_of_last_leave hc hstep hbefore hafter
  obtain ⟨-,hqueued⟩ := deserted_continues hafter he
  obtain ⟨late,htasks,hpushed⟩ := hqueued.late
  rw [hempty,List.nil_append] at htasks
  have hstarted : d.shared.pushed = d.shared.started ++ d.shared.tasks := (jobs_accounted hd).order
  rw [hempty,List.append_nil] at hstarted
  refine ⟨hqueued.started.trans hstarted.symm,?_,by rw [hpushed,htasks],hqueued.data⟩
  rw [hqueued.finished]
  exact finished_of_drained hd hempty (current_of_exited hd hafter)

theorem leaving_reachable : ∃ c : State 1 1 Unit Unit Unit,
    Reachable (pool returnAtOnce 1 1 ()).lts c ∧ c.pc (.worker 0) = .leave ∧
      c.pc (.poster 0) = .idle ∧ c.shared.pushed = [] ∧ c.shared.waiters = ∅ := by
  let start : State 1 1 Unit Unit Unit := ⟨startShared (),startPoint⟩
  have hstart : Reachable (pool returnAtOnce 1 1 ()).lts start := .init ⟨rfl,rfl⟩
  have hstop := reach_move hstart .destroyer (Step.storeStop _) trivial
  have hlock := reach_move hstop (.worker 0) (Step.lockTasks 0 _ rfl) trivial
  have hpass := reach_next hlock (Step.predicateTrue 0 _ rfl) trivial
  have hleave := reach_next hpass (Step.stopEmpty 0 _ rfl rfl) trivial
  exact ⟨_,hleave,Config.move_self _ _ _ _,rfl,rfl,rfl⟩

theorem last_leave_divides_late : ∃ d e : State 1 1 Unit Unit Unit, d.shared.pushed = [] ∧
    e.shared.pushed = [⟨0,()⟩] ∧ e.shared.started = d.shared.pushed ∧
      e.shared.pushed = d.shared.pushed ++ e.shared.tasks := by
  obtain ⟨c,hc,hpc,hidle,hpushed,hnobody⟩ := leaving_reachable
  let d := c.move (.worker 0) { c.shared with
    taskMutex := none, exits := insert 0 c.shared.exits } .exited
  have hleave : (pool returnAtOnce 1 1 ()).lts.step c (.worker 0) d := by
    refine Threads.step_move (P := pool returnAtOnce 1 1 ()) ?_
    rw [hpc]
    exact Step.leave 0 _
  have hbefore : ¬Deserted c := fun h => by
    have hexit := h 0
    simp [hpc] at hexit
  have hafter : Deserted d := fun w => by
    rw [Subsingleton.elim w 0]
    exact Config.move_self _ _ _ _
  have hpost : Continues (pool returnAtOnce 1 1 ()).lts anyStep _ _ :=
    continues_alone (post_new_task_alone returnAtOnce 0 d.shared () rfl hnobody ()) d
      fun _ _ _ => trivial
  have hback : d.move (.poster 0) d.shared .idle = d := by
    have hstays : d.pc (.poster 0) = .idle := hidle
    rw [← hstays,Config.move_pc]
  rw [hback] at hpost
  obtain ⟨hstarted,-,hafterwards,-⟩ := last_leave_divides returnAtOnce 1 1 () c d _ (.worker 0)
    hc hleave hbefore hafter hpost
  refine ⟨d,_,hpushed,?_,hstarted,hafterwards⟩
  simp [d,hpushed]

end SqlThread
end AlephSql
