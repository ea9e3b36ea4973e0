import AlephSql.ShutdownEnd

/-! Accesses to `M_tasks`. It is the one plain member that the threads of a pool share, and the
test after a task reads it under `M_running_count_mutex_` only. -/
namespace AlephSql
namespace SqlThread

open Transition Interleave

variable {m n : ℕ} {T B D : Type} {C : Calls T B D} {d₀ : D}

inductive Access
  | nothing | reads | writes
  deriving DecidableEq, Repr

/-- What the next action of a thread does with `M_tasks`. The queue itself is destroyed after the
body of `~sql_thread`. -/
def access (s : Shared m n T D) : Point T B → Access
  | .posting _ (.push _) | .destroyed => .writes
  | .testPredicate | .testEmpty => .reads
  | .afterWait => if s.tasks.isEmpty then .reads else .writes
  | _ => .nothing

/-- Thread `i` is about to write `M_tasks` while thread `j` is about to access it. -/
structure Race (c : State m n T B D) (i j : Thread m n) : Prop where
  others : i ≠ j
  writes : access c.shared (c.pc i) = .writes
  touches : access c.shared (c.pc j) ≠ .nothing

/-- The race is between the test after a task and a thread that holds `M_task_mutex_`, or between
a post from outside and the end of the pool. -/
def Excused (c : State m n T B D) (i j : Thread m n) : Prop :=
  (c.pc j = .testEmpty ∧ holdsTasks (c.pc i) = true) ∨
  (∃ k x, c.pc i = .destroyed ∧ j = .poster k ∧ c.pc j = .posting none (.push x)) ∨
  (∃ k x, c.pc j = .destroyed ∧ i = .poster k ∧ c.pc i = .posting none (.push x))

section Points

variable {i : Thread m n} {s s' : Shared m n T D} {p p' : Point T B}

theorem holds_of_access (h : access s p ≠ .nothing) :
    holdsTasks p = true ∨ p = .testEmpty ∨ p = .destroyed := by
  cases p with
  | posting k q => cases q <;> simp_all [access]
  | _ => simp_all [access]

theorem holds_of_writes (h : access s p = .writes) : holdsTasks p = true ∨ p = .destroyed := by
  rcases holds_of_access (h ▸ Access.noConfusion : access s p ≠ .nothing) with hp | rfl | hp
  · exact .inl hp
  · cases h
  · exact .inr hp

theorem push_of_access {k : Fin m} (hb : belongs (.poster k : Thread m n) p = true)
    (h : access s p ≠ .nothing) : ∃ x, p = .posting none (.push x) := by
  cases p with
  | posting back q =>
    cases back with
    | none => cases q <;> simp_all [access]
    | some b => simp at hb
  | _ => simp_all [access]

theorem step_quiet (h : Step C i s p s' p') (hempty : s.tasks = []) (hnone : counted p = 0)
    (hpost : ∀ x, p ≠ .posting none (.count x)) : s'.tasks = [] ∧ counted p' = 0 := by
  cases h with
  | postLock i s k x | postUnlock i s k | postNotifyNobody i s k | postNotifyOne i s k =>
    cases k <;> simp_all [counted,pushing]
  | postCount i s k x | postPush i s k x => cases k <;> simp_all [counted,pushing]
  | _ => simp_all [counted,pushing]

theorem step_testEmpty (h : Step C i s p s' p') (hp : p' = .testEmpty) :
    s' = s ∧ p = .testZero ∧ s.runningCount = 0 := by
  cases h <;> simp_all

end Points

section Reachable

variable {ok : Guard (Thread m n) (Shared m n T D) (Point T B)} {c : State m n T B D}

theorem worker_of_testEmpty (hc : Reach (pool C m n d₀).lts ok c) {i : Thread m n}
    (hi : c.pc i = .testEmpty) : ∃ w, i = .worker w := by
  have hb := belongs_pc hc i
  rw [hi] at hb
  cases i with
  | worker w => exact ⟨w,rfl⟩
  | _ => simp at hb

theorem push_of_destroyed (hc : Reach (pool C m n d₀).lts ok c) {i j : Thread m n}
    (hi : c.pc i = .destroyed) (hij : i ≠ j) (hj : access c.shared (c.pc j) ≠ .nothing) :
    ∃ k x, j = .poster k ∧ c.pc j = .posting none (.push x) := by
  have hbi := belongs_pc hc i
  have hbj := belongs_pc hc j
  obtain rfl : i = .destroyer := by
    cases i with
    | destroyer => rfl
    | _ => simp [hi] at hbi
  cases j with
  | destroyer => exact absurd rfl hij
  | poster k =>
    obtain ⟨x,hx⟩ := push_of_access hbj hj
    exact ⟨k,x,rfl,hx⟩
  | worker w =>
    have hjoined := joined hc
    rw [hi] at hjoined
    have hexit := (mem_exits_iff hc w).mp (hjoined w)
    simp [hexit,access] at hj

theorem excused_of_race (hc : Reach (pool C m n d₀).lts ok c) {i j : Thread m n}
    (h : Race c i j) : Excused c i j := by
  rcases holds_of_writes h.writes with hi | hi
  · rcases holds_of_access h.touches with hj | hj | hj
    · exact absurd (holdsTasks_unique hc hi hj) h.others
    · exact .inl ⟨hj,hi⟩
    · have hwrites : access c.shared (c.pc i) ≠ .nothing := by simp [h.writes]
      obtain ⟨k,x,hk,hx⟩ := push_of_destroyed hc hj (Ne.symm h.others) hwrites
      exact .inr (.inr ⟨k,x,hj,hk,hx⟩)
  · obtain ⟨k,x,hk,hx⟩ := push_of_destroyed hc hi h.others h.touches
    exact .inr (.inl ⟨k,x,hi,hk,hx⟩)

/-- During the test after a task nothing is queued, running or about to be pushed. -/
theorem quiet_of_testEmpty (hc : Reach (pool C m n d₀).lts StaysInRange c) {w : Fin n}
    (hw : c.pc (.worker w) = .testEmpty) :
    c.shared.tasks = [] ∧ ∀ i, counted (c.pc i) = 0 := by
  revert w
  refine hc.invariant (I := fun c => ∀ {w : Fin n}, c.pc (.worker w) = .testEmpty →
    c.shared.tasks = [] ∧ ∀ i, counted (c.pc i) = 0) ?_ ?_
  · rintro c ⟨-,hp⟩ w hw
    simp [hp,startPoint] at hw
  · rintro c i d hc hquiet hok ⟨hstep,hframe⟩ w hw
    by_cases hi : i = .worker w
    · subst hi
      obtain ⟨hsame,hplace,hzero⟩ := step_testEmpty hstep hw
      have hcount := runningCount_eq (hc.mono fun _ _ _ h => h.2)
      have hsum := sum_counted_nonneg c
      rw [hzero] at hcount
      have hnone : ∀ j, counted (c.pc j) = 0 := by
        have hall := (Finset.sum_eq_zero_iff_of_nonneg fun j _ => counted_nonneg (c.pc j)).mp
          (by omega : ∑ j, counted (c.pc j) = 0)
        exact fun j => hall j (Finset.mem_univ j)
      refine ⟨hsame ▸ List.eq_nil_of_length_eq_zero (by omega),fun j => ?_⟩
      by_cases hj : j = .worker w
      · rw [hj,hw]
        rfl
      · rw [hframe j hj]
        exact hnone j
    · have hold : c.pc (.worker w) = .testEmpty := (hframe _ (Ne.symm hi)).symm.trans hw
      obtain ⟨hempty,hnone⟩ := hquiet hold
      have hplaced := placed hc (.worker w)
      rw [hold] at hplaced
      have hstart : c.pc .destroyer ≠ .alive := fun halive => by
        simp [running_stop_unset hc halive] at hplaced
      have hpost : ∀ x, c.pc i ≠ .posting none (.count x) := by
        intro x hx
        have hb := belongs_pc hc i
        rw [hx] at hb
        cases i with
        | poster k => simp [posters_idle (hc.mono fun _ _ _ h => h.1) hstart k] at hx
        | _ => simp at hb
      obtain ⟨hempty',hmine⟩ := step_quiet hstep hempty (hnone i) hpost
      refine ⟨hempty',fun j => ?_⟩
      by_cases hj : j = i
      · exact hj ▸ hmine
      · rw [hframe j hj]
        exact hnone j

theorem not_writes_of_quiet {s : Shared m n T D} {p : Point T B} (hempty : s.tasks = [])
    (hnone : counted p = 0) (hp : holdsTasks p = true) : access s p ≠ .writes := by
  cases p with
  | posting k q => cases k <;> cases q <;> simp_all [access,counted,pushing]
  | _ => simp_all [access]

end Reachable

theorem tasks_race_free (C : Calls T B D) (m n : ℕ) (d₀ : D) :
    (∀ c : State m n T B D, Reachable (pool C m n d₀).lts c →
      ∀ i j, Race c i j → Excused c i j) ∧
    (∀ c : State m n T B D, Reach (pool C m n d₀).lts StaysInRange c → ∀ i j, ¬Race c i j) := by
  refine ⟨fun c hc i j h => excused_of_race hc h,fun c hc i j h => ?_⟩
  have hposts : Reach (pool C m n d₀).lts PostsBeforeShutdown c := hc.mono fun _ _ _ h => h.1
  have hidle : ∀ i, c.pc i = .destroyed → ∀ k, c.pc (.poster k) = .idle := by
    intro i hi
    have hb := belongs_pc hc i
    rw [hi] at hb
    cases i with
    | destroyer => exact posters_idle hposts (by simp [hi])
    | _ => simp at hb
  rcases excused_of_race hc h with ⟨hj,hi⟩ | ⟨k,x,hi,rfl,hx⟩ | ⟨k,x,hj,rfl,hx⟩
  · obtain ⟨w,rfl⟩ := worker_of_testEmpty hc hj
    obtain ⟨hempty,hnone⟩ := quiet_of_testEmpty hc hj
    exact not_writes_of_quiet hempty (hnone i) hi h.writes
  · simp [hidle i hi k] at hx
  · simp [hidle j hj k] at hx

theorem stays_next {C : Calls T B D} {d₀ : D} {c : State m n T B D} {i : Thread m n}
    {s s' : Shared m n T D} {p p' : Point T B}
    (hc : Reach (pool C m n d₀).lts StaysInRange (c.move i s p)) (h : Step C i s p s' p')
    (hidle : p ≠ .idle) (halive : p ≠ .alive) (hcount : ∀ k x, p ≠ .posting k (.count x)) :
    Reach (pool C m n d₀).lts StaysInRange (c.move i s' p') := by
  refine reach_next hc h ⟨⟨fun hi ha => ?_,fun j _ hi => ?_⟩,fun k x hx => ?_⟩
  · subst hi
    exact absurd ((Config.move_self c _ s p).symm.trans ha) halive
  · exact absurd ((Config.move_self c i s p).symm.trans hi) hidle
  · exact absurd ((Config.move_self c i s p).symm.trans hx) (hcount k x)

theorem testEmpty_reach : ∃ c : State 1 1 Unit Unit Unit,
    Reach (pool returnAtOnce 1 1 ()).lts StaysInRange c ∧ c.pc (.poster 0) = .idle ∧
      c.pc (.worker 0) = .testEmpty ∧ c.shared.taskMutex = none := by
  let start : State 1 1 Unit Unit Unit := ⟨startShared (),startPoint⟩
  have hstart : Reach (pool returnAtOnce 1 1 ()).lts StaysInRange start := .init ⟨rfl,rfl⟩
  have hcall := reach_move hstart (.poster 0) (Step.call 0 _ ())
    ⟨⟨by simp,fun _ _ _ => rfl⟩,by simp [CountInRange,start,startPoint]⟩
  have hlock := stays_next hcall (Step.postLock _ _ none () rfl) (by simp) (by simp) (by simp)
  have hcount := reach_next hlock (Step.postCount _ _ none ())
    ⟨⟨by simp,by simp⟩,by simp [CountInRange,start,startShared]⟩
  have hpush := stays_next hcount (Step.postPush _ _ none ()) (by simp) (by simp) (by simp)
  have hunlock := stays_next hpush (Step.postUnlock _ _ none) (by simp) (by simp) (by simp)
  have hnotify := stays_next hunlock (Step.postNotifyNobody _ _ none rfl) (by simp) (by simp)
    (by simp)
  have hreturn := stays_next hnotify (Step.returnToPoster _ _) (by simp) (by simp) (by simp)
  have hstop := reach_move hreturn .destroyer (Step.storeStop _)
    ⟨⟨fun _ _ j => Subsingleton.elim 0 j ▸ Config.move_self _ _ _ _,by simp⟩,
      by simp [CountInRange,start,startPoint]⟩
  have hfirst := reach_move hstop (.worker 0) (Step.lockTasks 0 _ rfl)
    ⟨⟨by simp,by simp⟩,by simp [CountInRange,start,startPoint]⟩
  have hpass := stays_next hfirst (Step.predicateTrue 0 _ rfl) (by simp) (by simp) (by simp)
  have htake := stays_next hpass (Step.take 0 _ ⟨0,()⟩ [] rfl) (by simp) (by simp) (by simp)
  have htaken := stays_next htake (Step.taken 0 _ _) (by simp) (by simp) (by simp)
  have hdone := stays_next htaken (Step.taskReturns 0 _ _ _ trivial) (by simp) (by simp) (by simp)
  have hcounting := stays_next hdone (Step.lockCount 0 _ rfl) (by simp) (by simp) (by simp)
  have hpositive := stays_next hcounting (Step.positive 0 _ (by decide)) (by simp) (by simp)
    (by simp)
  have hdecrement := stays_next hpositive (Step.decrement 0 _) (by simp) (by simp) (by simp)
  have hzero := stays_next hdecrement (Step.zero 0 _ (by decide)) (by simp) (by simp) (by simp)
  exact ⟨_,hzero,by simp,Config.move_self _ _ _ _,rfl⟩

theorem tasks_race_free_test :
    (∃ c : State 1 1 Unit Unit Unit, c.pc (.worker 0) = .testEmpty ∧ ∀ i j, ¬Race c i j) ∧
    (∃ c : State 1 1 Unit Unit Unit, Race c (.poster 0) (.worker 0) ∧
      Excused c (.poster 0) (.worker 0)) := by
  obtain ⟨c,hc,hidle,htest,hfree⟩ := testEmpty_reach
  have hsafe := (tasks_race_free returnAtOnce 1 1 ()).2 c hc
  have hcall := reach_move hc.reachable (.poster 0)
    (s := c.shared) (p := .posting none (.lock ())) (by rw [hidle]; exact .call 0 _ ()) trivial
  have hlock := reach_next hcall (Step.postLock _ _ none () hfree) trivial
  have hcount := reach_next hlock (Step.postCount _ _ none ()) trivial
  set late := c.move (.poster 0) _ (.posting none (.push ()))
  have htest' : late.pc (.worker 0) = .testEmpty :=
    (Config.move_other _ _ _ (by simp)).trans htest
  have hrace : Race late (.poster 0) (.worker 0) :=
    ⟨by simp,by simp [late,access],by simp [htest',access]⟩
  exact ⟨⟨c,htest,hsafe⟩,late,hrace,
    (tasks_race_free returnAtOnce 1 1 ()).1 late hcount _ _ hrace⟩

end SqlThread
end AlephSql
