import AlephSql.Shutdown
import AlephSql.Drain

/-! The end of a shutdown. With `M_stop` stored no worker waits anew, and every turn of the
worker loop takes a task or leaves, so that each step lowers a measure; and as long as nobody
has missed the `notify_all` some thread can go on. -/
namespace AlephSql
namespace SqlThread

open Transition Interleave

variable {m n : ℕ} {T B D : Type} {C : Calls T B D} {d₀ : D}

/-- Tasks that end. `fuel` bounds what a call still does, together with the tasks that it still
posts; `weight` is the fuel of a whole call. -/
structure Terminates (C : Calls T B D) where
  fuel : B → ℕ
  weight : T → ℕ
  call : ∀ t, fuel (C.call t) ≤ weight t.work
  act : ∀ {b d b' d'}, C.act b d b' d' → fuel b' < fuel b
  post : ∀ {b x b'}, C.post b x b' → fuel b'+weight x < fuel b
  goes : ∀ b d, C.returned b ∨ (∃ b' d', C.act b d b' d') ∨ ∃ x b', C.post b x b'

section Measure

variable (h : Terminates C)

/-- What is left of a post, the task it is about to push included. -/
def postRank : PostPoint T → ℕ
  | .lock x => 18+20*h.weight x
  | .count x => 17+20*h.weight x
  | .push x => 16+20*h.weight x
  | .unlock => 3
  | .notify => 2
  | .done => 1

/-- What is left of a turn of the worker loop, or of `~sql_thread` with `n` workers. -/
def pointRank (n : ℕ) : Point T B → ℕ
  | .idle | .exited | .destroyed => 0
  | .posting none p => postRank h p
  | .posting (some (_,b)) p => 13+20*h.fuel b+postRank h p
  | .leave => 1
  | .afterWait => 3
  | .testPredicate => 4
  | .lockTasks | .parked => 5
  | .skip => 6
  | .park => 7
  | .taken t => 14+20*h.weight t.work
  | .running _ b => 13+20*h.fuel b
  | .lockCount => 12
  | .testPositive => 11
  | .decrement => 10
  | .testZero => 9
  | .testEmpty => 8
  | .notifyIdle => 7
  | .unlockCount => 6
  | .alive => n+3
  | .stopped => n+2
  | .joining k => n+1-k

/-- The turns that the queued tasks will take, and the threads that can still be woken. -/
def load (s : Shared m n T D) : ℕ :=
  (s.tasks.map fun t => 12+20*h.weight t.work).sum+s.waiters.card

def shutdownRank (c : State m n T B D) : ℕ := load h c.shared+∑ i, pointRank h n (c.pc i)

/-- With `M_stop` stored every step but a new post lowers the measure. -/
theorem step_rank {i : Thread m n} {s s' : Shared m n T D} {p p' : Point T B}
    (hstep : Step C i s p s' p') (hstop : s.stop = true) (hin : p ≠ .idle) :
    pointRank h n p'+load h s' < pointRank h n p+load h s := by
  have hnobody : (∅ : Finset (Thread m n)).card ≤ s.waiters.card := by simp
  cases hstep with
  | call i s x => exact absurd rfl hin
  | postLock i s k x | postCount i s k x | postUnlock i s k | postNotifyNobody i s k =>
    cases k <;> simp [pointRank,postRank,load]
  | postPush i s k x =>
    cases k <;> simp [pointRank,postRank,load] <;> omega
  | postNotifyOne i s k j waits =>
    have hless := Finset.card_erase_lt_of_mem waits
    cases k <;> simp only [pointRank,postRank,load] <;> omega
  | predicateFalse w s h => simp [waitPredicate,hstop] at h
  | park w s =>
    have hmore := Finset.card_insert_le (Thread.worker w) s.waiters
    simp only [pointRank,load]
    omega
  | spurious w s waits =>
    have hless := Finset.card_erase_lt_of_mem waits
    simp only [pointRank,load]
    omega
  | runEmpty w s empty stop => simp [hstop] at stop
  | take w s t rest front =>
    simp only [pointRank,load,front,List.map_cons,List.sum_cons]
    omega
  | taken w s t =>
    have hcall := h.call t
    simp only [pointRank,load]
    omega
  | act w s t b b' d' hact =>
    have hless := h.act hact
    simp only [pointRank,load]
    omega
  | taskPosts w s t b x b' hpost =>
    have hless := h.post hpost
    simp only [pointRank,postRank]
    omega
  | join s k hk =>
    have hlt := k.isLt
    simp only [pointRank]
    omega
  | _ => simp only [pointRank,postRank,load]; omega

theorem shutdownRank_step {c d : State m n T B D} {i : Thread m n}
    (hstep : (pool C m n d₀).lts.step c i d) (hstop : c.shared.stop = true)
    (hin : c.pc i ≠ .idle) : shutdownRank h d < shutdownRank h c := by
  have hmove := sum_move (fun _ => pointRank h n) hstep.2
  have hrank := step_rank h hstep.1 hstop hin
  unfold shutdownRank
  omega

end Measure

section Goes

variable {i : Thread m n} {s s' : Shared m n T D} {p p' : Point T B}

@[simp] def inTurn : Point T B → Bool
  | .idle | .posting _ _ | .alive | .stopped | .joining _ | .destroyed => false
  | _ => true

theorem worker_of_inTurn (hb : belongs i p = true) (hp : inTurn p = true) :
    ∃ w, i = .worker w := by
  cases i with
  | worker w => exact ⟨w,rfl⟩
  | poster j => cases p <;> simp_all
  | destroyer => cases p <;> simp_all

theorem goes_of_holdsTasks (hb : belongs i p = true) (hp : holdsTasks p = true) :
    ∃ s' p', Step C i s p s' p' := by
  by_cases hturn : inTurn p = true
  · obtain ⟨w,rfl⟩ := worker_of_inTurn hb hturn
    cases p with
    | testPredicate =>
      cases hwait : waitPredicate s.tasks s.stop with
      | true => exact ⟨_,_,.predicateTrue w s hwait⟩
      | false => exact ⟨_,_,.predicateFalse w s hwait⟩
    | afterWait =>
      cases hq : s.tasks with
      | cons t rest => exact ⟨_,_,.take w s t rest hq⟩
      | nil =>
        cases hstop : s.stop with
        | true => exact ⟨_,_,.stopEmpty w s hq hstop⟩
        | false => exact ⟨_,_,.runEmpty w s hq hstop⟩
    | park => exact ⟨_,_,.park w s⟩
    | skip => exact ⟨_,_,.skip w s⟩
    | leave => exact ⟨_,_,.leave w s⟩
    | taken t => exact ⟨_,_,.taken w s t⟩
    | _ => simp at hp hturn
  · cases p with
    | posting k q =>
      cases q with
      | count x => exact ⟨_,_,.postCount i s k x⟩
      | push x => exact ⟨_,_,.postPush i s k x⟩
      | unlock => exact ⟨_,_,.postUnlock i s k⟩
      | _ => simp at hp
    | _ => simp at hp hturn

theorem goes_of_holdsCount (hb : belongs i p = true) (hp : holdsCount p = true) :
    ∃ s' p', Step C i s p s' p' := by
  have hturn : inTurn p = true := by cases p <;> simp_all
  obtain ⟨w,rfl⟩ := worker_of_inTurn hb hturn
  cases p with
  | testPositive =>
    by_cases hpos : 0 < s.runningCount
    · exact ⟨_,_,.positive w s hpos⟩
    · exact ⟨_,_,.notPositive w s hpos⟩
  | decrement => exact ⟨_,_,.decrement w s⟩
  | testZero =>
    by_cases hzero : s.runningCount = 0
    · exact ⟨_,_,.zero w s hzero⟩
    · exact ⟨_,_,.notZero w s hzero⟩
  | testEmpty =>
    by_cases hempty : s.tasks = []
    · exact ⟨_,_,.empty w s hempty⟩
    · exact ⟨_,_,.notEmpty w s hempty⟩
  | notifyIdle => exact ⟨_,_,.notifyIdle w s⟩
  | unlockCount => exact ⟨_,_,.unlockCount w s⟩
  | _ => simp at hp

def Rests (s : Shared m n T D) (i : Thread m n) (p : Point T B) : Prop :=
  p = .idle ∨ p = .exited ∨ (p = .parked ∧ i ∈ s.waiters)

theorem goes_of_free (h : Terminates C) (hi : i ≠ .destroyer) (hb : belongs i p = true)
    (htasks : s.taskMutex = none) (hcount : s.countMutex = none) (hp : holdsTasks p = false)
    (hp' : holdsCount p = false) (hrest : ¬Rests s i p) : ∃ s' p', Step C i s p s' p' := by
  by_cases hturn : inTurn p = true
  · obtain ⟨w,rfl⟩ := worker_of_inTurn hb hturn
    cases p with
    | lockTasks => exact ⟨_,_,.lockTasks w s htasks⟩
    | parked =>
      have hwoken : .worker w ∉ s.waiters := fun hw => hrest (.inr (.inr ⟨rfl,hw⟩))
      exact ⟨_,_,.wake w s hwoken htasks⟩
    | exited => exact absurd (.inr (.inl rfl)) hrest
    | running t b =>
      rcases h.goes b s.data with hret | ⟨b',d',hact⟩ | ⟨x,b',hpost⟩
      · exact ⟨_,_,.taskReturns w s t b hret⟩
      · exact ⟨_,_,.act w s t b b' d' hact⟩
      · exact ⟨_,_,.taskPosts w s t b x b' hpost⟩
    | lockCount => exact ⟨_,_,.lockCount w s hcount⟩
    | _ => simp at hp hp' hturn
  · cases p with
    | idle => exact absurd (.inl rfl) hrest
    | posting k q =>
      cases q with
      | lock x => exact ⟨_,_,.postLock i s k x htasks⟩
      | notify =>
        rcases s.waiters.eq_empty_or_nonempty with hnobody | ⟨j,hj⟩
        · exact ⟨_,_,.postNotifyNobody i s k hnobody⟩
        · exact ⟨_,_,.postNotifyOne i s k j hj⟩
      | done =>
        rcases k with - | ⟨t,b⟩
        · exact ⟨_,_,.returnToPoster i s⟩
        · exact ⟨_,_,.returnToTask i s t b⟩
      | _ => simp at hp
    | alive | stopped | joining k | destroyed => cases i <;> simp_all
    | _ => simp at hturn

theorem step_exits (h : Step C i s p s' p') : s.exits ⊆ s'.exits := by
  cases h with
  | leave w s => exact Finset.subset_insert w _
  | _ => exact Finset.Subset.refl _

theorem step_exits_self {w : Fin n} (h : Step C (.worker w) s p s' p')
    (hp : w ∈ s.exits ↔ p = .exited) : w ∈ s'.exits ↔ p' = .exited := by
  cases h <;> simp_all

theorem step_exits_other {w : Fin n} (h : Step C i s p s' p') (hi : .worker w ≠ i) :
    w ∈ s'.exits ↔ w ∈ s.exits := by
  cases h with
  | leave v s =>
    have hne : w ≠ v := fun hw => hi (congrArg Thread.worker hw)
    simp [hne]
  | _ => rfl

@[simp] def Joined (s : Shared m n T D) : Point T B → Prop
  | .joining k => k ≤ n ∧ ∀ w : Fin n, w.val < k → w ∈ s.exits
  | .destroyed => ∀ w, w ∈ s.exits
  | _ => True

theorem step_joined (h : Step C .destroyer s p s' p') (hp : Joined s p) : Joined s' p' := by
  cases h with
  | join s k hk =>
    refine ⟨k.isLt,fun w hw => ?_⟩
    rcases Nat.lt_succ_iff_lt_or_eq.mp hw with hlt | heq
    · exact hp.2 w hlt
    · exact Fin.ext heq ▸ hk
  | joined s => exact fun w => hp.2 w w.isLt
  | _ => simp_all

theorem Joined.mono (hs : s.exits ⊆ s'.exits) (hp : Joined s p) : Joined s' p := by
  cases p with
  | joining k => exact ⟨hp.1,fun w hw => hs (hp.2 w hw)⟩
  | destroyed => exact fun w => hs (hp w)
  | _ => trivial

theorem step_not_alive (h : Step C i s p s' p') : p' ≠ .alive := by
  cases h <;> simp

end Goes

section Reachable

variable {ok : Guard (Thread m n) (Shared m n T D) (Point T B)} {c d : State m n T B D}

theorem mem_exits_iff (hc : Reach (pool C m n d₀).lts ok c) (w : Fin n) :
    w ∈ c.shared.exits ↔ c.pc (.worker w) = .exited := by
  refine watched_invariant (.worker w) (Q := fun s p => w ∈ s.exits ↔ p = .exited) ?_ ?_ ?_ hc
  · rintro s pc ⟨rfl,rfl⟩
    simp [startShared,startPoint]
  · intro c d _ _ h hq
    exact step_exits_self h hq
  · intro c d i hi _ _ h hq
    exact (step_exits_other h (Ne.symm hi)).trans hq

theorem joined (hc : Reach (pool C m n d₀).lts ok c) : Joined c.shared (c.pc .destroyer) := by
  refine watched_invariant .destroyer (Q := Joined) ?_ ?_ ?_ hc
  · rintro s pc ⟨rfl,rfl⟩
    trivial
  · intro c d _ _ h hq
    exact step_joined h hq
  · intro c d i _ _ _ h hq
    exact hq.mono (step_exits h)

theorem stop_of_not_alive (hc : Reach (pool C m n d₀).lts ok c)
    (h : c.pc .destroyer ≠ .alive) : c.shared.stop = true := by
  have hplaced := placed hc .destroyer
  have hbelongs := belongs_pc hc .destroyer
  generalize c.pc .destroyer = p at h hplaced hbelongs
  cases p <;> simp_all

theorem not_alive_step {i : Thread m n} (h : (pool C m n d₀).lts.step c i d)
    (hc : c.pc .destroyer ≠ .alive) : d.pc .destroyer ≠ .alive := by
  by_cases hi : i = .destroyer
  · subst hi
    exact step_not_alive h.1
  · rwa [h.2 .destroyer (Ne.symm hi)]

/-- Every worker is parked without a notification or has exited. -/
def Stranded (c : State m n T B D) : Prop :=
  ∀ w : Fin n, .worker w ∈ c.shared.waiters ∨ c.pc (.worker w) = .exited

/-- A step that needs no new post from outside and no spurious wakeup, and is not a `notify_all`
of `~sql_thread` while a worker is about to park. -/
def Unprompted : Guard (Thread m n) (Shared m n T D) (Point T B) := fun c i _ =>
  c.pc i ≠ .idle ∧ (c.pc i = .parked → i ∉ c.shared.waiters) ∧
    (c.pc i = .stopped → ∀ j, c.pc j ≠ .park)

theorem unprompted_of_holds {p : Point T B}
    (h : holdsTasks p = true ∨ holdsCount p = true) :
    p ≠ .idle ∧ p ≠ .parked ∧ p ≠ .stopped := by
  cases p <;> simp_all

theorem goes_of_resting (hc : Reach (pool C m n d₀).lts ok c)
    (hrest : ∀ i, i ≠ .destroyer → Rests c.shared i (c.pc i))
    (hend : c.pc .destroyer ≠ .destroyed)
    (hawake : Notified (c.pc .destroyer) → (∃ w : Fin n, .worker w ∈ c.shared.waiters) →
      ¬Stranded c) :
    ∃ s' p', Step C .destroyer c.shared (c.pc .destroyer) s' p' := by
  have hworker : ∀ w : Fin n, .worker w ∈ c.shared.waiters ∨ c.pc (.worker w) = .exited := by
    intro w
    rcases hrest (.worker w) (by simp) with hidle | hexit | ⟨-,hw⟩
    · have hb := belongs_pc hc (.worker w)
      simp [hidle] at hb
    · exact .inr hexit
    · exact .inl hw
  have hjoined := joined hc
  have hbelongs := belongs_pc hc .destroyer
  cases hp : c.pc .destroyer with
  | alive => exact ⟨_,_,.storeStop _⟩
  | stopped => exact ⟨_,_,.notifyStop _⟩
  | joining k =>
    rw [hp] at hjoined hawake
    rcases Nat.lt_or_eq_of_le hjoined.1 with hlt | rfl
    · rcases hworker ⟨k,hlt⟩ with hw | hexit
      · exact absurd hworker (hawake trivial ⟨_,hw⟩)
      · exact ⟨_,_,.join _ ⟨k,hlt⟩ ((mem_exits_iff hc _).mpr hexit)⟩
    · exact ⟨_,_,.joined _⟩
  | destroyed => exact absurd hp hend
  | _ =>
    rw [hp] at hbelongs
    simp at hbelongs

/-- As long as `~sql_thread` has not returned some thread can go on by itself. -/
theorem unprompted_step (hc : Reach (pool C m n d₀).lts ok c) (h : Terminates C)
    (hend : c.pc .destroyer ≠ .destroyed)
    (hawake : Notified (c.pc .destroyer) → (∃ w : Fin n, .worker w ∈ c.shared.waiters) →
      ¬Stranded c) :
    ∃ d, Move (pool C m n d₀).lts Unprompted c d := by
  have hgoes : ∀ i, c.pc i ≠ .idle → (c.pc i = .parked → i ∉ c.shared.waiters) →
      (c.pc i = .stopped → ∀ j, c.pc j ≠ .park) →
      (∃ s' p', Step C i c.shared (c.pc i) s' p') →
      ∃ d, Move (pool C m n d₀).lts Unprompted c d := by
    rintro i hidle hparked hstopped ⟨s',p',hstep⟩
    exact ⟨c.move i s' p',i,⟨hidle,hparked,hstopped⟩,Threads.step_move hstep⟩
  have hbelongs := belongs_pc hc
  cases htasks : c.shared.taskMutex with
  | some i =>
    have hholds := (holdsTasks_iff hc i).mpr htasks
    obtain ⟨hidle,hparked,hstopped⟩ := unprompted_of_holds (.inl hholds)
    exact hgoes i hidle (absurd · hparked) (absurd · hstopped)
      (goes_of_holdsTasks (hbelongs i) hholds)
  | none =>
  cases hcount : c.shared.countMutex with
  | some i =>
    have hholds := (holdsCount_iff hc i).mpr hcount
    obtain ⟨hidle,hparked,hstopped⟩ := unprompted_of_holds (.inr hholds)
    exact hgoes i hidle (absurd · hparked) (absurd · hstopped)
      (goes_of_holdsCount (hbelongs i) hholds)
  | none =>
  have hout : ∀ i, holdsTasks (c.pc i) = false ∧ holdsCount (c.pc i) = false := by
    intro i
    constructor
    · have hiff := holdsTasks_iff hc i
      simpa [htasks] using hiff
    · have hiff := holdsCount_iff hc i
      simpa [hcount] using hiff
  by_cases hrest : ∀ i, i ≠ .destroyer → Rests c.shared i (c.pc i)
  · refine hgoes .destroyer (fun hidle => ?_) (fun hparked => ?_) (fun _ j hpark => ?_)
      (goes_of_resting hc hrest hend hawake)
    · have hb := hbelongs .destroyer
      simp [hidle] at hb
    · have hb := hbelongs .destroyer
      simp [hparked] at hb
    · have hheld := (hout j).1
      simp [hpark] at hheld
  · push Not at hrest
    obtain ⟨i,hi,hrest⟩ := hrest
    refine hgoes i (fun hidle => hrest (.inl hidle))
      (fun hparked hw => hrest (.inr (.inr ⟨hparked,hw⟩))) (fun hstopped => ?_)
      (goes_of_free h hi (hbelongs i) htasks hcount (hout i).1 (hout i).2 hrest)
    have hb := hbelongs i
    rw [hstopped] at hb
    cases i <;> simp_all

/-- `~sql_thread` has returned, and every task ever posted has been run to its end once. -/
structure Settled (c : State m n T B D) : Prop where
  destroyed : c.pc .destroyer = .destroyed
  exited : ∀ w : Fin n, c.pc (.worker w) = .exited
  tasks : c.shared.tasks = []
  finished : c.shared.finished.Perm c.shared.pushed

theorem settled_of_destroyed (hn : 0 < n) (hc : Reach (pool C m n d₀).lts PostsBeforeShutdown c)
    (h : c.pc .destroyer = .destroyed) : Settled c := by
  have hjoined := joined hc
  rw [h] at hjoined
  have hexit : ∀ w : Fin n, c.pc (.worker w) = .exited :=
    fun w => (mem_exits_iff hc w).mp (hjoined w)
  have hempty := tasks_of_exited hn hc hexit
  exact ⟨h,hexit,hempty,finished_of_drained hc hempty (current_of_exited hc hexit)⟩

theorem inevitable_settled (h : Terminates C) (hn : 0 < n)
    (hposts : ∀ {c i d}, ok c i d → PostsBeforeShutdown c i d)
    (hawake : ∀ {c}, Reach (pool C m n d₀).lts ok c → Notified (c.pc .destroyer) →
      (∃ w : Fin n, .worker w ∈ c.shared.waiters) → ¬Stranded c)
    (hc : Reach (pool C m n d₀).lts ok c) (hstart : c.pc .destroyer ≠ .alive) :
    Inevitable (pool C m n d₀).lts ok Unprompted Settled c := by
  refine Inevitable.of_measure (shutdownRank h)
    (I := fun c => Reach (pool C m n d₀).lts ok c ∧ c.pc .destroyer ≠ .alive) ?_ ?_ ⟨hc,hstart⟩
  · rintro c ⟨hc,-⟩ hend
    have hreach := hc.mono fun _ _ _ => hposts
    exact unprompted_step hc h (fun hdone => hend (settled_of_destroyed hn hreach hdone))
      (hawake hc)
  · rintro c i d ⟨hc,hstart⟩ hok hstep
    have hin : c.pc i ≠ .idle := by
      intro hidle
      have hb := belongs_pc hc i
      rw [hidle] at hb
      cases i with
      | poster j => exact hstart ((hposts hok).2 j rfl hidle)
      | _ => simp at hb
    exact ⟨⟨.step hc hok hstep,not_alive_step hstep hstart⟩,
      shutdownRank_step h hstep (stop_of_not_alive hc hstart) hin⟩

end Reachable

/-- Runs with the posts from outside before the shutdown, whose notification misses nobody. -/
def MissesNobody : Guard (Thread m n) (Shared m n T D) (Point T B) := fun c i d =>
  PostsBeforeShutdown c i d ∧ NotifiesAwake c i d

/-- Runs with the posts from outside before the shutdown, whose count stays in range. -/
def StaysInRange : Guard (Thread m n) (Shared m n T D) (Point T B) := fun c i d =>
  PostsBeforeShutdown c i d ∧ CountInRange c i d

theorem shutdown_ends (C : Calls T B D) (h : Terminates C) (m n : ℕ) (d₀ : D) (hn : 0 < n) :
    (∀ c : State m n T B D, Reach (pool C m n d₀).lts MissesNobody c →
      c.pc .destroyer ≠ .alive →
        Inevitable (pool C m n d₀).lts MissesNobody Unprompted Settled c) ∧
    (2 ≤ n → ∀ c : State m n T B D, Reach (pool C m n d₀).lts StaysInRange c →
      c.pc .destroyer ≠ .alive →
        Inevitable (pool C m n d₀).lts StaysInRange Unprompted Settled c) := by
  refine ⟨fun c hc hstart => ?_,fun htwo c hc hstart => ?_⟩
  · refine inevitable_settled h hn (fun hok => hok.1) ?_ hc hstart
    rintro c hc hnot ⟨w,hw⟩
    have hreach := hc.mono fun _ _ _ hok => hok.2
    exact absurd (.inr hw) (awake_of_notified hreach hnot (.worker w))
  · refine inevitable_settled h hn (fun hok => hok.1) ?_ hc hstart
    rintro c hc hnot ⟨w,hw⟩ hstranded
    have hreach := hc.mono fun _ _ _ hok => hok.2
    obtain ⟨v,hawake,hin⟩ := (rescued htwo hreach hnot).helper (.worker w) (.inr hw)
    rcases hstranded v with hwait | hexit
    · exact hawake (.inr hwait)
    · simp [hexit] at hin

def returnAtOnceTerminates : Terminates returnAtOnce where
  fuel _ := 0
  weight _ := 0
  call _ := le_rfl
  act h := h.elim
  post h := h.elim
  goes _ _ := .inl trivial

theorem shutdown_ends_samples :
    (∃ c : State 1 1 Unit Unit Unit, c.shared.tasks = [⟨0,()⟩] ∧
      Inevitable (pool returnAtOnce 1 1 ()).lts MissesNobody Unprompted Settled c) ∧
    (∃ c : State 1 2 Unit Unit Unit, c.pc .destroyer = .stopped ∧
      Inevitable (pool returnAtOnce 1 2 ()).lts StaysInRange Unprompted Settled c) := by
  have hpost : Reach (pool returnAtOnce 1 1 ()).lts MissesNobody onePost :=
    onePost_reach fun d e halive => ⟨⟨by simp,fun _ _ _ => halive⟩,by simp [NotifiesAwake]⟩
  have hone := reach_move hpost .destroyer (Step.storeStop (C := returnAtOnce) _)
    ⟨⟨fun _ _ _ => rfl,by simp⟩,fun _ hp => by cases hp⟩
  have hstart : Reach (pool returnAtOnce 1 2 ()).lts StaysInRange ⟨startShared (),startPoint⟩ :=
    .init ⟨rfl,rfl⟩
  have htwo := reach_move hstart .destroyer (Step.storeStop (C := returnAtOnce) _)
    ⟨⟨fun _ _ _ => rfl,by simp⟩,fun _ _ hp => by cases hp⟩
  have hends := (shutdown_ends returnAtOnce returnAtOnceTerminates 1 1 () (by decide)).1 _ hone
    (by simp)
  have hends' := (shutdown_ends returnAtOnce returnAtOnceTerminates 1 2 () (by decide)).2
    (by decide) _ htwo (by simp)
  exact ⟨⟨_,rfl,hends⟩,⟨_,Config.move_self _ _ _ _,hends'⟩⟩

end SqlThread
end AlephSql
