import AlephSql.Stall
import AlephSql.RunningCount

/-! `~sql_thread` stores `M_stop` and notifies without `M_task_mutex_`. A worker that has
evaluated the predicate and not yet parked misses the notification; whether anybody wakes it
later depends on the other workers. -/
namespace AlephSql
namespace SqlThread

open Transition Interleave

variable {m n : ℕ} {T B D : Type} {C : Calls T B D} {d₀ : D}

/-- `~sql_thread` has issued `notify_all`. -/
@[simp] def Notified : Point T B → Prop
  | .joining _ | .destroyed => True
  | _ => False

/-- Parked without a notification, or about to park. -/
def Asleep (c : State m n T B D) (i : Thread m n) : Prop :=
  c.pc i = .park ∨ i ∈ c.shared.waiters

@[simp] def Finishing : Point T B → Prop
  | .testZero | .testEmpty | .notifyIdle => True
  | _ => False

/-- `notify_all` is out, some worker is parked, every other one is parked or has exited, and
nobody is about to notify: `join` returns only after a spurious wakeup. -/
structure LostWakeUp (c : State m n T B D) : Prop where
  notified : Notified (c.pc .destroyer)
  parked : ∃ w : Fin n, .worker w ∈ c.shared.waiters
  others : ∀ w : Fin n, .worker w ∈ c.shared.waiters ∨ c.pc (.worker w) = .exited
  quiet : PostsReturned c

/-- Runs in which `~sql_thread` notifies while no worker stands between a false predicate and
its parking. -/
def NotifiesAwake : Guard (Thread m n) (Shared m n T D) (Point T B) := fun c i _ =>
  i = .destroyer → c.pc i = .stopped → ∀ j, c.pc j ≠ .park

section Steps

variable {i j : Thread m n} {s s' : Shared m n T D} {p p' : Point T B}

theorem step_asleep (h : Step C i s p s' p') (hstop : s.stop = true)
    (hi : p' = .park ∨ i ∈ s'.waiters) : p = .park ∨ i ∈ s.waiters := by
  cases h with
  | predicateFalse w s h => simp [waitPredicate,hstop] at h
  | park w s => exact .inl rfl
  | _ => simp_all

theorem step_park (h : Step C i s p s' p') (hp : p' = .park) : s.stop = false := by
  cases h with
  | predicateFalse w s h => simpa [waitPredicate] using (Bool.or_eq_false_iff.mp h).2
  | _ => cases hp

theorem step_notified (h : Step C .destroyer s p s' p') (hp : Notified p') :
    Notified p ∨ (p = .stopped ∧ s'.waiters = ∅) := by
  cases h with
  | notifyStop s => exact .inr ⟨rfl,rfl⟩
  | _ => simp_all

theorem step_finishing (h : Step C i s p s' p') (hp : Finishing p) :
    Finishing p' ∨ (s'.runningCount = s.runningCount ∧
      (s.runningCount ≠ 0 ∨ s.tasks ≠ [] ∨ s'.waiters = ∅)) := by
  cases h <;> simp_all

theorem step_runningCount (h : Step C i s p s' p') (hpos : 0 < s.runningCount)
    (hroom : ∀ k x, p = .posting k (.count x) → s.runningCount < 2^31-1) :
    0 < s'.runningCount ∨ Finishing p' := by
  cases h with
  | postCount i s k x =>
    left
    have hlt := hroom k x rfl
    simp only
    rw [wrapInt_of_range (by omega) (by omega)]
    omega
  | decrement w s => exact .inr trivial
  | _ => exact .inl hpos

end Steps

section Reachable

variable {ok : Guard (Thread m n) (Shared m n T D) (Point T B)} {c d : State m n T B D}

theorem stop_of_notified (hc : Reach (pool C m n d₀).lts ok c)
    (h : Notified (c.pc .destroyer)) : c.shared.stop = true := by
  have hplaced := placed hc .destroyer
  generalize c.pc .destroyer = p at h hplaced
  cases p <;> simp_all

theorem asleep_before {i : Thread m n} (h : (pool C m n d₀).lts.step c i d)
    (hstop : c.shared.stop = true) {j : Thread m n} (hj : Asleep d j) : Asleep c j := by
  obtain ⟨hstep,hframe⟩ := h
  by_cases hij : j = i
  · subst hij
    exact step_asleep hstep hstop hj
  · rw [Asleep,hframe j hij] at hj
    exact hj.imp_right (step_waiters_other hstep hij)

theorem notified_before {i : Thread m n} (h : (pool C m n d₀).lts.step c i d)
    (hd : Notified (d.pc .destroyer)) : Notified (c.pc .destroyer) ∨
      (i = .destroyer ∧ c.pc i = .stopped ∧ d.shared.waiters = ∅) := by
  by_cases hi : i = .destroyer
  · subst hi
    exact (step_notified h.1 hd).imp_right fun ⟨hp,hw⟩ => ⟨rfl,hp,hw⟩
  · exact .inl (h.2 .destroyer (Ne.symm hi) ▸ hd)

theorem awake_of_notified (hc : Reach (pool C m n d₀).lts NotifiesAwake c)
    (h : Notified (c.pc .destroyer)) (i : Thread m n) : ¬Asleep c i := by
  revert h i
  refine hc.invariant (I := fun c => Notified (c.pc .destroyer) → ∀ i, ¬Asleep c i) ?_ ?_
  · rintro c ⟨-,hp⟩ h
    simp [hp,startPoint] at h
  · intro c i d hc hawake hok h hd j hj
    rcases notified_before h hd with hnot | ⟨rfl,hstop,hnobody⟩
    · exact hawake hnot j (asleep_before h (stop_of_notified hc hnot) hj)
    · -- the step is the `notify_all` itself
      rcases hj with hpark | hwait
      · have hne : j ≠ .destroyer := by
          rintro rfl
          simp [hpark] at hd
        exact hok rfl hstop j (h.2 j hne ▸ hpark)
      · simp [hnobody] at hwait

/-- While a worker is about to park nobody has left the loop: it saw `M_stop` unset, and it
keeps the mutex that leaving takes. -/
theorem not_left_of_park (hc : Reach (pool C m n d₀).lts ok c) {i : Thread m n}
    (hi : c.pc i = .park) (j : Thread m n) : ¬Left (c.pc j) := by
  revert i j
  refine hc.invariant (I := fun c => ∀ {i}, c.pc i = .park → ∀ j, ¬Left (c.pc j)) ?_ ?_
  · rintro c ⟨-,hp⟩ i hi
    cases i <;> simp [hp,startPoint] at hi
  · rintro c k d hc hleft hok ⟨hstep,hframe⟩ i hi j hj
    have hheld : i ≠ k → holdsTasks (c.pc i) = true := fun hik => by
      simp [← hframe i hik,hi]
    by_cases hik : i = k
    · -- the mover has just found `M_stop` unset, and leaving needs it set
      subst hik
      have hstop := step_park hstep hi
      have hji : j ≠ i := by
        rintro rfl
        simp [hi] at hj
      have hplaced := placed hc j
      rw [hframe j hji] at hj
      generalize c.pc j = q at hj hplaced
      cases q <;> simp_all
    · by_cases hjk : j = k
      · subst hjk
        exact hik (holdsTasks_unique hc (hheld hik) (step_left_holds hstep hj))
      · exact hleft ((hframe i hik).symm.trans hi) j (hframe j hjk ▸ hj)

end Reachable

section Rescue

variable {c d : State m n T B D}

def Busy (p : Point T B) : Prop := counted p ≠ 0 ∨ Finishing p

theorem busy_awake {p : Point T B} (h : Busy p) :
    p ≠ .park ∧ p ≠ .parked ∧ ¬Left p ∧ p ≠ .afterWait := by
  cases p <;> simp_all [Busy,counted]

theorem worker_of_busy {i : Thread m n} {p : Point T B} (hbelongs : belongs i p = true)
    (h : Busy p) (hout : holdsTasks p = false) : ∃ w, i = .worker w := by
  cases i with
  | worker w => exact ⟨w,rfl⟩
  | poster i =>
    cases p with
    | posting k p => cases k <;> cases p <;> simp_all [Busy,counted,pushing]
    | _ => simp_all [Busy,counted]
  | destroyer => cases p <;> simp_all [Busy,counted]

/-- Somebody still has to bring the count to zero, or has just done so. -/
def Duty (c : State m n T B D) : Prop :=
  0 < c.shared.runningCount ∨ ∃ i, Finishing (c.pc i)

/-- Awake and in the worker loop. -/
def Helper (c : State m n T B D) (w : Fin n) : Prop :=
  ¬Asleep c (.worker w) ∧ ¬Left (c.pc (.worker w))

/-- After the notification at most one worker sleeps, and then another one is awake and the
work that ends in a `notify_all` is not done. -/
structure Rescued (c : State m n T B D) : Prop where
  unique : ∀ i j, Asleep c i → Asleep c j → i = j
  helper : ∀ i, Asleep c i → ∃ w, Helper c w
  duty : ∀ i, Asleep c i → Duty c

theorem helper_of_busy {ok : Guard (Thread m n) (Shared m n T D) (Point T B)}
    (hc : Reach (pool C m n d₀).lts ok c) {i : Thread m n} (hi : Busy (c.pc i))
    (hout : holdsTasks (c.pc i) = false) : ∃ w, i = .worker w ∧ Helper c w := by
  obtain ⟨w,rfl⟩ := worker_of_busy (belongs_pc hc i) hi hout
  obtain ⟨hpark,hparked,hleft,-⟩ := busy_awake hi
  exact ⟨w,rfl,fun hs => hs.elim hpark fun hw => hparked (parked_of_mem_waiters hc hw),hleft⟩

theorem busy_of_duty (hc : Reach (pool C m n d₀).lts CountInRange c)
    (hempty : c.shared.tasks = []) (h : Duty c) : ∃ i, Busy (c.pc i) := by
  rcases h with hpos | ⟨i,hi⟩
  · have hsum := runningCount_eq hc
    rw [hempty] at hsum
    have hne : ∑ i, counted (c.pc i) ≠ 0 := by
      simp only [List.length_nil,Nat.cast_zero] at hsum
      omega
    obtain ⟨i,-,hi⟩ := Finset.exists_ne_zero_of_sum_ne_zero hne
    exact ⟨i,.inl hi⟩
  · exact ⟨i,.inr hi⟩

/-- When `~sql_thread` notifies, only a worker about to park misses it, and it has left a task
in the queue to the others. -/
theorem rescued_at_notify (hn : 2 ≤ n) (hd : Reach (pool C m n d₀).lts CountInRange d)
    (hnobody : d.shared.waiters = ∅) : Rescued d := by
  have hpark : ∀ i, Asleep d i → d.pc i = .park := by
    rintro i (hi | hi)
    · exact hi
    · simp [hnobody] at hi
  refine ⟨fun i j hi hj => ?_,fun i hi => ?_,fun i hi => ?_⟩
  · exact holdsTasks_unique hd (by simp [hpark i hi]) (by simp [hpark j hj])
  · have hbelongs := belongs_pc hd i
    rw [hpark i hi] at hbelongs
    cases i with
    | worker w =>
      obtain ⟨v,hv⟩ : ∃ v : Fin n, v ≠ w := by
        have : Nontrivial (Fin n) := Fin.nontrivial_iff_two_le.mpr hn
        exact exists_ne w
      refine ⟨v,fun hs => hv ?_,not_left_of_park hd (hpark _ hi) _⟩
      have heq := holdsTasks_unique hd (i := .worker v) (j := .worker w)
        (by simp [hpark _ hs]) (by simp [hpark _ hi])
      exact Thread.worker.inj heq
    | _ => simp at hbelongs
  · have hplaced := placed hd i
    rw [hpark i hi] at hplaced
    exact .inl (runningCount_pos_of_tasks hd hplaced)

/-- The duty passes from the last decrement to the `notify_all` after it, and never lapses
while somebody sleeps. -/
theorem duty_step (hc : Reach (pool C m n d₀).lts CountInRange c)
    (hd : Reach (pool C m n d₀).lts CountInRange d) {i : Thread m n}
    (hok : CountInRange c i d) (h : (pool C m n d₀).lts.step c i d) {j : Thread m n}
    (hj : Asleep d j) (hduty : Duty c) : Duty d := by
  obtain ⟨hstep,hframe⟩ := h
  have htasks : d.shared.tasks ≠ [] → Duty d := fun ht => .inl (runningCount_pos_of_tasks hd ht)
  rcases hduty with hpos | ⟨k,hk⟩
  · exact (step_runningCount hstep hpos hok).imp_right fun hi => ⟨i,hi⟩
  · by_cases hki : k = i
    · subst hki
      rcases step_finishing hstep hk with hfin | ⟨hcount,hne | ht | hnobody⟩
      · exact .inr ⟨k,hfin⟩
      · have hnonneg := runningCount_nonneg hc
        exact .inl (by omega)
      · have hpos := runningCount_pos_of_tasks hc ht
        exact .inl (by omega)
      · -- everybody in the wait set is awake now; one about to park has seen a task
        have hpark : d.pc j = .park := hj.resolve_right (by simp [hnobody])
        have hplaced := placed hd j
        rw [hpark] at hplaced
        exact htasks hplaced
    · exact .inr ⟨k,hframe k hki ▸ hk⟩

theorem rescued_step (hc : Reach (pool C m n d₀).lts CountInRange c)
    (hd : Reach (pool C m n d₀).lts CountInRange d) {i : Thread m n}
    (hok : CountInRange c i d) (h : (pool C m n d₀).lts.step c i d)
    (hstop : c.shared.stop = true) (hr : Rescued c) : Rescued d := by
  have hbefore : ∀ j, Asleep d j → Asleep c j := fun j hj => asleep_before h hstop hj
  have hduty : ∀ j, Asleep d j → Duty d :=
    fun j hj => duty_step hc hd hok h hj (hr.duty j (hbefore j hj))
  refine ⟨fun j k hj hk => hr.unique j k (hbefore j hj) (hbefore k hk),fun j hj => ?_,hduty⟩
  obtain ⟨w,hawake,hin⟩ := hr.helper j (hbefore j hj)
  by_cases hout : Left (d.pc (.worker w))
  · -- the helper leaves: the queue is empty, and whoever has the duty takes over
    have hw : .worker w = i := by
      by_contra hne
      exact hin (h.2 _ hne ▸ hout)
    subst hw
    obtain ⟨hafter,hempty⟩ := (step_left h.1 hout).resolve_left hin
    obtain ⟨k,hbusy⟩ := busy_of_duty hc hempty (hr.duty j (hbefore j hj))
    have hkw : k ≠ .worker w := by
      rintro rfl
      exact (busy_awake hbusy).2.2.2 hafter
    have hfree : holdsTasks (c.pc k) = false := by
      by_contra hheld
      exact hkw (holdsTasks_unique hc (by simpa using hheld) (by simp [hafter]))
    have hpc := h.2 k hkw
    obtain ⟨v,-,hv⟩ := helper_of_busy hd (hpc ▸ hbusy) (hpc ▸ hfree)
    exact ⟨v,hv⟩
  · exact ⟨w,fun hs => hawake (hbefore _ hs),hout⟩

theorem rescued (hn : 2 ≤ n) (hc : Reach (pool C m n d₀).lts CountInRange c)
    (h : Notified (c.pc .destroyer)) : Rescued c := by
  revert h
  refine hc.invariant (I := fun c => Notified (c.pc .destroyer) → Rescued c) ?_ ?_
  · rintro c ⟨-,hp⟩ h
    simp [hp,startPoint] at h
  · intro c i d hc hr hok h hd
    have hreach : Reach (pool C m n d₀).lts CountInRange d := .step hc hok h
    rcases notified_before h hd with hnot | ⟨-,-,hnobody⟩
    · exact rescued_step hc hreach hok h (stop_of_notified hc hnot) (hr hnot)
    · exact rescued_at_notify hn hreach hnobody

end Rescue

theorem lost_of_parking_alone (d₀ : D) {c : State m 1 T B D} (hstop : c.pc .destroyer = .stopped)
    (hpark : c.pc (.worker 0) = .park) (hquiet : PostsReturned c) :
    ∃ e, Continues (pool C m 1 d₀).lts anyStep c e ∧ LostWakeUp e := by
  have hnotify : (pool C m 1 d₀).step .destroyer c.shared (c.pc .destroyer)
      { c.shared with waiters := ∅ } (.joining 0) := hstop ▸ Step.notifyStop _
  let d := c.move .destroyer { c.shared with waiters := ∅ } (.joining 0)
  have hd : d.pc (.worker 0) = .park := by simp [d,hpark]
  have hsleep : (pool C m 1 d₀).step (.worker 0) d.shared (d.pc (.worker 0))
      { d.shared with taskMutex := none, waiters := insert (.worker 0) ∅ } .parked :=
    hd ▸ Step.park 0 d.shared
  let e := d.move (.worker 0)
    { d.shared with taskMutex := none, waiters := insert (.worker 0) ∅ } .parked
  refine ⟨e,(Relation.ReflTransGen.single ⟨_,trivial,Threads.step_move hnotify⟩).tail
    ⟨_,trivial,Threads.step_move hsleep⟩,?_,⟨0,?_⟩,fun w => .inl ?_,fun i k p => ?_⟩
  · simp [e,d]
  · simp [e]
  · simp [e,Subsingleton.elim w 0]
  · by_cases hi : i = .worker 0
    · simp [e,hi]
    · by_cases hj : i = .destroyer
      · simp [e,d,hj]
      · simpa [e,d,hi,hj] using hquiet i k p

/-- No wake-up is lost in runs in which `~sql_thread` notifies while no worker is about to
park, nor in any run of two or more workers whose count stays in range, since the worker that
brings the count to zero notifies again. A single worker about to park at the notification
does end in the lost wake-up. -/
theorem shutdown_wakes_workers (C : Calls T B D) (m n : ℕ) (d₀ : D) :
    (∀ c : State m n T B D, (Reach (pool C m n d₀).lts NotifiesAwake c ∨
        (2 ≤ n ∧ Reach (pool C m n d₀).lts CountInRange c)) → ¬LostWakeUp c) ∧
    (∀ c : State m 1 T B D, Reachable (pool C m 1 d₀).lts c → c.pc .destroyer = .stopped →
      c.pc (.worker 0) = .park → PostsReturned c →
      ∃ e, Continues (pool C m 1 d₀).lts anyStep c e ∧ LostWakeUp e) := by
  refine ⟨?_,fun c _ hstop hpark hquiet => lost_of_parking_alone d₀ hstop hpark hquiet⟩
  rintro c (hc | ⟨hn,hc⟩) hlost
  · obtain ⟨w,hw⟩ := hlost.parked
    exact awake_of_notified hc hlost.notified (.worker w) (.inr hw)
  · obtain ⟨w,hw⟩ := hlost.parked
    obtain ⟨v,hawake,hin⟩ := (rescued hn hc hlost.notified).helper (.worker w) (.inr hw)
    rcases hlost.others v with hwait | hexit
    · exact hawake (.inr hwait)
    · simp [hexit] at hin

theorem onePost_parking : ∃ c : State 1 1 Unit Unit Unit,
    Reachable (pool returnAtOnce 1 1 ()).lts c ∧ c.pc .destroyer = .stopped ∧
      c.pc (.worker 0) = .park ∧ PostsReturned c := by
  have hlock := reach_move onePost_reachable (.worker 0)
    (Step.lockTasks (C := returnAtOnce) 0 onePost.shared rfl) trivial
  have htest := reach_move hlock (.worker 0)
    (Step.predicateFalse (C := returnAtOnce) 0 _ rfl) trivial
  have hstore := reach_move htest .destroyer (Step.storeStop (C := returnAtOnce) _) trivial
  refine ⟨_,hstore,by simp,?_,fun i k p => ?_⟩
  · rw [Config.move_other _ _ _ (by decide),Config.move_self]
  · cases i with
    | poster i => simp [Config.move,onePost,startPoint]
    | worker w => simp [Config.move,Subsingleton.elim w 0]
    | destroyer => simp

theorem shutdown_wakes_workers_sample :
    ((∀ c : State 1 2 Unit Unit Unit, (Reach (pool returnAtOnce 1 2 ()).lts NotifiesAwake c ∨
        (2 ≤ 2 ∧ Reach (pool returnAtOnce 1 2 ()).lts CountInRange c)) → ¬LostWakeUp c) ∧
      (∀ c : State 1 1 Unit Unit Unit, Reachable (pool returnAtOnce 1 1 ()).lts c →
        c.pc .destroyer = .stopped → c.pc (.worker 0) = .park → PostsReturned c →
        ∃ e, Continues (pool returnAtOnce 1 1 ()).lts anyStep c e ∧ LostWakeUp e)) ∧
    ∃ c : State 1 1 Unit Unit Unit, Reachable (pool returnAtOnce 1 1 ()).lts c ∧
      c.pc .destroyer = .stopped ∧ c.pc (.worker 0) = .park ∧ PostsReturned c :=
  ⟨shutdown_wakes_workers returnAtOnce 1 2 (),onePost_parking⟩

/-- The lone worker of a pool with one task queued parks after the `notify_all`. -/
theorem lost_wakeup_one_worker : ∃ c : State 1 1 Unit Unit Unit,
    Reachable (pool returnAtOnce 1 1 ()).lts c ∧ LostWakeUp c := by
  obtain ⟨c,hc,hstop,hpark,hquiet⟩ := onePost_parking
  obtain ⟨e,hpath,hlost⟩ := lost_of_parking_alone () hstop hpark hquiet
  exact ⟨e,hc.continues hpath,hlost⟩

end SqlThread
end AlephSql
