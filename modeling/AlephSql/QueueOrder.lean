import AlephSql.Drain

/-! The order of `M_tasks`. Posts take effect by their `push_back` and tasks leave by
`pop_front`; between the two nothing overtakes, whoever posts and whoever takes. -/
namespace AlephSql
namespace SqlThread

open Transition Interleave

variable {m n : ℕ} {T B D : Type}

section Actions

variable (C : Calls T B D) (d₀ : D)

abbrev Leads (c d : State m n T B D) : Prop := Continues (pool C m n d₀).lts anyStep c d

/-- Thread `i` enters `post_new_task` with `x`. -/
def Posts (i : Thread m n) (x : T) (c d : State m n T B D) : Prop :=
  (pool C m n d₀).lts.step c i d ∧ ∃ k, d.pc i = .posting k (.lock x)

/-- Thread `i` puts `t` at the back of `M_tasks`. -/
def Pushes (i : Thread m n) (t : Task T) (c d : State m n T B D) : Prop :=
  (pool C m n d₀).lts.step c i d ∧ d.shared.tasks = c.shared.tasks ++ [t]

/-- Thread `i` removes `t` from the front of `M_tasks`. -/
def Takes (i : Thread m n) (t : Task T) (c d : State m n T B D) : Prop :=
  (pool C m n d₀).lts.step c i d ∧ c.shared.tasks = t :: d.shared.tasks

/-- An action pushes a task, takes one, or leaves the queue alone, and the logs have it. -/
inductive Logged (i : Thread m n) (c d : State m n T B D) : Prop
  | push (t : Task T) (pushes : Pushes C d₀ i t c d)
      (pushed : d.shared.pushed = c.shared.pushed ++ [t])
      (started : d.shared.started = c.shared.started)
  | take (t : Task T) (takes : Takes C d₀ i t c d) (pushed : d.shared.pushed = c.shared.pushed)
      (started : d.shared.started = c.shared.started ++ [t])
  | quiet (tasks : d.shared.tasks = c.shared.tasks) (pushed : d.shared.pushed = c.shared.pushed)
      (started : d.shared.started = c.shared.started)

/-- Whatever is pushed from `c` on is taken after `t`. -/
def TakenBefore (t : Task T) (c : State m n T B D) : Prop :=
  ∀ i u d e f, Leads C d₀ c d → Pushes C d₀ i u d e → Leads C d₀ e f →
    u ∈ f.shared.started → [t,u].Sublist f.shared.started

/-- The queue conserves order: the tasks dequeued so far, followed by the queue, are the tasks
pushed so far; every take is of the first task not taken yet; and a thread that posts twice has
pushed its first task when it posts again, and has it taken first. -/
structure KeepsOrder (m n : ℕ) : Prop where
  conserved : ∀ c : State m n T B D, Reachable (pool C m n d₀).lts c →
    c.shared.started ++ c.shared.tasks = c.shared.pushed
  step : ∀ (c d : State m n T B D) i, (pool C m n d₀).lts.step c i d → Logged C d₀ i c d
  next : ∀ (c d : State m n T B D) i t, Reachable (pool C m n d₀).lts c → Takes C d₀ i t c d →
    c.shared.pushed[c.shared.started.length]? = some t
  order : ∀ (c d : State m n T B D) i t, Reachable (pool C m n d₀).lts c → Pushes C d₀ i t c d →
    TakenBefore C d₀ t d
  thread : ∀ (i : Thread m n) x y c₁ d₁ c₂ d₂, Reachable (pool C m n d₀).lts c₁ →
    Posts C d₀ i x c₁ d₁ → Leads C d₀ d₁ c₂ → Posts C d₀ i y c₂ d₂ →
      ∃ t e f, t.work = x ∧ Leads C d₀ d₁ e ∧ Pushes C d₀ i t e f ∧ Leads C d₀ f c₂ ∧
        TakenBefore C d₀ t d₂

end Actions

variable {C : Calls T B D} {d₀ : D}

section Steps

variable {i : Thread m n} {s s' : Shared m n T D} {p p' : Point T B}

/-- A post of `x` that has not yet pushed. -/
@[simp] def Pending (x : T) : Point T B → Prop
  | .posting _ (.lock y) | .posting _ (.count y) | .posting _ (.push y) => y = x
  | _ => False

theorem step_pending {x : T} (h : Step C i s p s' p') (hp : Pending x p) :
    (Pending x p' ∨ s'.tasks = s.tasks ++ [⟨s.pushed.length,x⟩]) ∧
      ∀ k y, p' ≠ .posting k (.lock y) := by
  cases h <;> simp_all

end Steps

section Runs

variable {c d e f : State m n T B D} {i : Thread m n} {t u : Task T} {x y : T}

theorem step_logged (h : (pool C m n d₀).lts.step c i d) : Logged C d₀ i c d := by
  rcases step_traffic h.1 with ⟨ht,hp,hs,-⟩ | ⟨x,ht,hp,hs,-⟩ | ⟨t,rest,hfront,ht,hp,hs,-⟩ |
    ⟨t,ht,hp,hs,-⟩
  · exact .quiet ht hp hs
  · exact .push _ ⟨h,ht⟩ hp hs
  · exact .take t ⟨h,by rw [hfront,ht]⟩ hp hs
  · exact .quiet ht hp hs

theorem Pushes.pushed (h : Pushes C d₀ i t c d) : d.shared.pushed = c.shared.pushed ++ [t] := by
  obtain ⟨hstep,htasks⟩ := h
  cases step_logged hstep with
  | push u pushes pushed =>
    rw [pushes.2,List.append_cancel_left_eq] at htasks
    rw [pushed,htasks]
  | take u takes =>
    have hlength := congrArg List.length (takes.2 ▸ htasks)
    simp only [List.length_append,List.length_cons] at hlength
    omega
  | quiet tasks => simp [tasks] at htasks

theorem Pushes.mem (h : Pushes C d₀ i t c d) : t ∈ d.shared.pushed := by
  rw [h.pushed]
  exact List.mem_append_right _ List.mem_cons_self

theorem step_pushed (h : (pool C m n d₀).lts.step c i d) :
    c.shared.pushed <+: d.shared.pushed := by
  cases step_logged h with
  | push t _ pushed =>
    rw [pushed]
    exact List.prefix_append _ _
  | take t _ pushed => rw [pushed]
  | quiet _ pushed => rw [pushed]

theorem pushed_grows (h : Leads C d₀ c d) : c.shared.pushed <+: d.shared.pushed := by
  refine h.invariant (I := fun e => c.shared.pushed <+: e.shared.pushed) ?_ List.prefix_rfl
  intro e i f hp _ hstep
  exact hp.trans (step_pushed hstep)

/-- A task pushed is taken before every task pushed later. -/
theorem takenBefore_of_mem (hc : Reachable (pool C m n d₀).lts c) (ht : t ∈ c.shared.pushed) :
    TakenBefore C d₀ t c := by
  intro i u d e f hcd hpush hef hu
  have hd := hc.continues hcd
  have hf := (hd.step trivial hpush.1).continues hef
  have htu : [t,u].Sublist e.shared.pushed := by
    rw [hpush.pushed]
    have ht' := (pushed_grows hcd).subset ht
    exact (List.singleton_sublist.mpr ht').append (List.Sublist.refl [u])
  exact (jobs_accounted hf).in_order (htu.trans (pushed_grows hef).sublist) hu

theorem pending_or_pushed (hpost : Posts C d₀ i x c d) (h : Leads C d₀ d e) :
    Pending x (e.pc i) ∨
      ∃ t u v, t.work = x ∧ Leads C d₀ d u ∧ Pushes C d₀ i t u v ∧ Leads C d₀ v e := by
  induction h with
  | refl =>
    obtain ⟨-,k,hk⟩ := hpost
    exact .inl (by rw [hk]; rfl)
  | @tail e f hde hmove ih =>
    obtain ⟨j,-,hstep⟩ := hmove
    -- only the poster itself moves the post on
    rcases ih with hpending | ⟨t,u,v,hx,hdu,hpush,hve⟩
    · by_cases hj : i = j
      · subst hj
        rcases (step_pending hstep.1 hpending).1 with hstill | htasks
        · exact .inl hstill
        · exact .inr ⟨_,e,f,rfl,hde,⟨hstep,htasks⟩,.refl⟩
      · rw [← hstep.2 i hj] at hpending
        exact .inl hpending
    · exact .inr ⟨t,u,v,hx,hdu,hpush,hve.tail ⟨j,trivial,hstep⟩⟩

theorem pushed_of_posts_again (hpost : Posts C d₀ i x c d) (h : Leads C d₀ d e)
    (hagain : Posts C d₀ i y e f) :
    ∃ t u v, t.work = x ∧ Leads C d₀ d u ∧ Pushes C d₀ i t u v ∧ Leads C d₀ v e := by
  obtain ⟨hstep,k,hk⟩ := hagain
  exact (pending_or_pushed hpost h).resolve_left fun hpending =>
    (step_pending hstep.1 hpending).2 k y hk

end Runs

/-- In every pool and every run the queue conserves order, with `M_stop` set or not. -/
theorem queue_keeps_order (C : Calls T B D) (m n : ℕ) (d₀ : D) : KeepsOrder C d₀ m n where
  conserved _ hc := (jobs_accounted hc).order.symm
  step _ _ _ h := step_logged h
  next _ _ _ _ hc h := (jobs_accounted hc).next h.2
  order _ _ _ _ hc h := takenBefore_of_mem (hc.step trivial h.1) h.mem
  thread i x y c₁ d₁ c₂ d₂ hc hfirst hrun hagain := by
    obtain ⟨t,e,f,hx,hde,hpush,hfc⟩ := pushed_of_posts_again hfirst hrun hagain
    have hd₂ := ((hc.step trivial hfirst.1).continues hrun).step trivial hagain.1
    have hlater := (pushed_grows hfc).trans (step_pushed hagain.1)
    exact ⟨t,e,f,hx,hde,hpush,hfc,takenBefore_of_mem hd₂ (hlater.subset hpush.mem)⟩

def twoPosts : State 1 1 Unit Unit Unit where
  shared := { startShared () with
    runningCount := 2, stop := true, tasks := [⟨0,()⟩,⟨1,()⟩], pushed := [⟨0,()⟩,⟨1,()⟩] }
  pc := Function.update startPoint .destroyer .stopped

theorem twoPosts_reachable : Reachable (pool returnAtOnce 1 1 ()).lts twoPosts := by
  have hposts := post_reach onePost_reachable 0 () rfl rfl rfl fun _ _ _ _ => trivial
  have hback : ∀ s, onePost.move (.poster 0) s .idle = ⟨s,startPoint⟩ :=
    onePost.move_pc (.poster 0)
  rw [hback] at hposts
  exact reach_move hposts .destroyer (Step.storeStop (C := returnAtOnce) _) trivial

theorem twoPosts_served : ∃ c : State 1 1 Unit Unit Unit,
    Reachable (pool returnAtOnce 1 1 ()).lts c ∧ c.shared.tasks = [] ∧
      c.shared.pushed = [⟨0,()⟩,⟨1,()⟩] := by
  obtain ⟨z,W,hfirst⟩ := serve_alone returnAtOnce () (0 : Fin 1) twoPosts.shared ⟨0,()⟩ [⟨1,()⟩]
    rfl rfl rfl rfl trivial
  obtain ⟨z',W',hsecond⟩ := serve_alone returnAtOnce () (0 : Fin 1)
    { twoPosts.shared with
        tasks := [⟨1,()⟩], started := [⟨0,()⟩], finished := [⟨0,()⟩], runningCount := z,
        waiters := W } ⟨1,()⟩ [] rfl rfl rfl rfl trivial
  have hrun : Continues (pool returnAtOnce 1 1 ()).lts anyStep _ _ :=
    continues_alone (hfirst.trans hsecond) twoPosts fun _ _ _ => trivial
  have hback : twoPosts.move (.worker 0) twoPosts.shared .lockTasks = twoPosts :=
    Config.move_pc twoPosts (.worker 0) twoPosts.shared
  rw [hback] at hrun
  exact ⟨_,twoPosts_reachable.continues hrun,rfl,rfl⟩

theorem queue_keeps_order_two_posts : ∃ c : State 1 1 Unit Unit Unit,
    c.shared.tasks = [] ∧ c.shared.started = [⟨0,()⟩,⟨1,()⟩] := by
  obtain ⟨c,hc,hempty,hpushed⟩ := twoPosts_served
  have horder := (queue_keeps_order returnAtOnce 1 1 ()).conserved c hc
  rw [hempty,hpushed,List.append_nil] at horder
  exact ⟨c,hempty,horder⟩

end SqlThread
end AlephSql
