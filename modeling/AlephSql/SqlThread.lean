import AlephSql.Interleave
import Mathlib.Tactic.DeriveFintype

/-! The thread pool `sql_thread`: `post_new_task`, the worker loop and `~sql_thread` as
threads over the members of the object. Each action below is one lock, unlock, atomic
access or queue operation of the source; `condition_variable::wait(lock, pred)` is the loop
"evaluate `pred` under the mutex; if false, release the mutex and park". -/
namespace AlephSql
namespace SqlThread

open Transition Interleave

/-- A queued `std::function<void()>`. The ticket is ghost: the number of earlier pushes. -/
structure Task (T : Type) where
  ticket : ℕ
  work : T
  deriving DecidableEq, Repr

/-- What the functions handed to the pool do when called. A call is a local state `B` that
acts on the data `D` outside the pool, may call `post_new_task`, and returns without throwing. -/
structure Calls (T B D : Type) where
  call : Task T → B
  act : B → D → B → D → Prop
  post : B → T → B → Prop
  returned : B → Prop

/-- Posting threads, the workers of `M_worke_threads` and the thread running `~sql_thread`. -/
inductive Thread (m n : ℕ)
  | poster (i : Fin m)
  | worker (w : Fin n)
  | destroyer
  deriving DecidableEq, Fintype

inductive PostPoint (T : Type)
  | lock (x : T) | count (x : T) | push (x : T) | unlock | notify | done
  deriving DecidableEq

/-- Where a thread stands. A call of `post_new_task` made by a running task remembers the
task in `back`. -/
inductive Point (T B : Type)
  | idle
  | posting (back : Option (Task T × B)) (p : PostPoint T)
  | lockTasks | testPredicate | park | parked | afterWait | skip | leave | exited
  | taken (t : Task T) | running (t : Task T) (b : B)
  | lockCount | testPositive | decrement | testZero | testEmpty | notifyIdle | unlockCount
  | alive | stopped | joining (k : ℕ) | destroyed

/-- The members of `sql_thread`, the data its tasks act on, and three ghost logs: the tasks
pushed, taken out of the queue, and run to their end. -/
structure Shared (m n : ℕ) (T D : Type) where
  tasks : List (Task T)
  stop : Bool
  runningCount : ℤ
  taskMutex : Option (Thread m n)
  countMutex : Option (Thread m n)
  waiters : Finset (Thread m n)
  exits : Finset (Fin n)
  data : D
  pushed : List (Task T)
  started : List (Task T)
  finished : List (Task T)

/-- `std::atomic<int>` wraps around at 32 bits. -/
def wrapInt (z : ℤ) : ℤ := z.bmod (2^32)

/-- The predicate handed to `M_condition_variable.wait`. -/
def waitPredicate {T : Type} (tasks : List (Task T)) (stop : Bool) : Bool :=
  tasks.isEmpty || stop

variable {m n : ℕ} {T B D : Type}

inductive Step (C : Calls T B D) :
    Thread m n → Shared m n T D → Point T B → Shared m n T D → Point T B → Prop
  -- post_new_task
  | call (i : Fin m) (s) (x : T) : Step C (.poster i) s .idle s (.posting none (.lock x))
  | postLock (i s k x) (free : s.taskMutex = none) :
      Step C i s (.posting k (.lock x)) { s with taskMutex := some i } (.posting k (.count x))
  | postCount (i s k x) :
      Step C i s (.posting k (.count x)) { s with runningCount := wrapInt (s.runningCount+1) }
        (.posting k (.push x))
  | postPush (i s k x) :
      Step C i s (.posting k (.push x))
        { s with tasks := s.tasks ++ [⟨s.pushed.length,x⟩],
                 pushed := s.pushed ++ [⟨s.pushed.length,x⟩] }
        (.posting k .unlock)
  | postUnlock (i s k) :
      Step C i s (.posting k .unlock) { s with taskMutex := none } (.posting k .notify)
  | postNotifyNobody (i s k) (nobody : s.waiters = ∅) :
      Step C i s (.posting k .notify) s (.posting k .done)
  | postNotifyOne (i s k) (j : Thread m n) (waits : j ∈ s.waiters) :
      Step C i s (.posting k .notify) { s with waiters := s.waiters.erase j } (.posting k .done)
  | returnToPoster (i s) : Step C i s (.posting none .done) s .idle
  | returnToTask (i s t b) : Step C i s (.posting (some (t,b)) .done) s (.running t b)
  -- worker: M_condition_variable.wait
  | lockTasks (w : Fin n) (s) (free : s.taskMutex = none) :
      Step C (.worker w) s .lockTasks { s with taskMutex := some (.worker w) } .testPredicate
  | predicateTrue (w : Fin n) (s) (h : waitPredicate s.tasks s.stop = true) :
      Step C (.worker w) s .testPredicate s .afterWait
  | predicateFalse (w : Fin n) (s) (h : waitPredicate s.tasks s.stop = false) :
      Step C (.worker w) s .testPredicate s .park
  | park (w : Fin n) (s) :
      Step C (.worker w) s .park
        { s with taskMutex := none, waiters := insert (.worker w) s.waiters } .parked
  | spurious (w : Fin n) (s) (waits : .worker w ∈ s.waiters) :
      Step C (.worker w) s .parked { s with waiters := s.waiters.erase (.worker w) } .parked
  | wake (w : Fin n) (s) (notified : .worker w ∉ s.waiters) (free : s.taskMutex = none) :
      Step C (.worker w) s .parked { s with taskMutex := some (.worker w) } .testPredicate
  -- worker: the three ways on from the wait
  | stopEmpty (w : Fin n) (s) (empty : s.tasks = []) (stop : s.stop = true) :
      Step C (.worker w) s .afterWait s .leave
  | runEmpty (w : Fin n) (s) (empty : s.tasks = []) (stop : s.stop = false) :
      Step C (.worker w) s .afterWait s .skip
  | take (w : Fin n) (s) (t rest) (front : s.tasks = t :: rest) :
      Step C (.worker w) s .afterWait { s with tasks := rest, started := s.started ++ [t] }
        (.taken t)
  | leave (w : Fin n) (s) :
      Step C (.worker w) s .leave { s with taskMutex := none, exits := insert w s.exits } .exited
  | skip (w : Fin n) (s) : Step C (.worker w) s .skip { s with taskMutex := none } .lockTasks
  | taken (w : Fin n) (s t) :
      Step C (.worker w) s (.taken t) { s with taskMutex := none } (.running t (C.call t))
  -- worker: _task_func()
  | act (w : Fin n) (s t b b' d') (h : C.act b s.data b' d') :
      Step C (.worker w) s (.running t b) { s with data := d' } (.running t b')
  | taskPosts (w : Fin n) (s t b x b') (h : C.post b x b') :
      Step C (.worker w) s (.running t b) s (.posting (some (t,b')) (.lock x))
  | taskReturns (w : Fin n) (s t b) (h : C.returned b) :
      Step C (.worker w) s (.running t b) { s with finished := s.finished ++ [t] } .lockCount
  -- worker: the running count
  | lockCount (w : Fin n) (s) (free : s.countMutex = none) :
      Step C (.worker w) s .lockCount { s with countMutex := some (.worker w) } .testPositive
  | positive (w : Fin n) (s) (h : 0 < s.runningCount) :
      Step C (.worker w) s .testPositive s .decrement
  | notPositive (w : Fin n) (s) (h : ¬0 < s.runningCount) :
      Step C (.worker w) s .testPositive s .testZero
  | decrement (w : Fin n) (s) :
      Step C (.worker w) s .decrement { s with runningCount := wrapInt (s.runningCount-1) }
        .testZero
  | zero (w : Fin n) (s) (h : s.runningCount = 0) : Step C (.worker w) s .testZero s .testEmpty
  | notZero (w : Fin n) (s) (h : s.runningCount ≠ 0) :
      Step C (.worker w) s .testZero s .unlockCount
  | empty (w : Fin n) (s) (h : s.tasks = []) : Step C (.worker w) s .testEmpty s .notifyIdle
  | notEmpty (w : Fin n) (s) (h : s.tasks ≠ []) :
      Step C (.worker w) s .testEmpty s .unlockCount
  | notifyIdle (w : Fin n) (s) :
      Step C (.worker w) s .notifyIdle { s with waiters := ∅ } .unlockCount
  | unlockCount (w : Fin n) (s) :
      Step C (.worker w) s .unlockCount { s with countMutex := none } .lockTasks
  -- ~sql_thread
  | storeStop (s) : Step C .destroyer s .alive { s with stop := true } .stopped
  | notifyStop (s) : Step C .destroyer s .stopped { s with waiters := ∅ } (.joining 0)
  | join (s) (k : Fin n) (h : k ∈ s.exits) :
      Step C .destroyer s (.joining k) s (.joining (k+1))
  | joined (s) : Step C .destroyer s (.joining n) s .destroyed

/-- Where the threads stand when the constructor has returned. -/
def startPoint : Thread m n → Point T B
  | .poster _ => .idle
  | .worker _ => .lockTasks
  | .destroyer => .alive

def startShared (d : D) : Shared m n T D where
  tasks := []
  stop := false
  runningCount := 0
  taskMutex := none
  countMutex := none
  waiters := ∅
  exits := ∅
  data := d
  pushed := []
  started := []
  finished := []

/-- A pool of `n` workers, `m` posting threads and data that starts as `d₀`. -/
def pool (C : Calls T B D) (m n : ℕ) (d₀ : D) :
    Threads (Thread m n) (Shared m n T D) (Point T B) where
  init s pc := s = startShared d₀ ∧ pc = startPoint
  step := Step C

def returnAtOnce : Calls Unit Unit Unit where
  call _ := ()
  act _ _ _ _ := False
  post _ _ _ := False
  returned _ := True

abbrev State (m n : ℕ) (T B D : Type) := Config (Thread m n) (Shared m n T D) (Point T B)

theorem push_alone (C : Calls T B D) (i : Thread m n) (s : Shared m n T D)
    (k : Option (Task T × B)) (x : T) (hfree : s.taskMutex = none) (hnobody : s.waiters = ∅)
    (d₀ : D) :
    Alone (pool C m n d₀) i (s,.posting k (.lock x))
      ({ s with runningCount := wrapInt (s.runningCount+1)
                tasks := s.tasks ++ [⟨s.pushed.length,x⟩]
                pushed := s.pushed ++ [⟨s.pushed.length,x⟩] },.posting k .done) := by
  have hlock := alone_next (P := pool C m n d₀) .refl (Step.postLock i s k x hfree)
  have hcount := alone_next hlock (Step.postCount _ _ k x)
  have hpush := alone_next hcount (Step.postPush _ _ k x)
  have hunlock := alone_next hpush (Step.postUnlock _ _ k)
  simpa [hfree] using alone_next hunlock (Step.postNotifyNobody _ _ k hnobody)

theorem post_new_task_alone (C : Calls T B D) (i : Fin m) (s : Shared m n T D) (x : T)
    (hfree : s.taskMutex = none) (hnobody : s.waiters = ∅) (d₀ : D) :
    Alone (pool C m n d₀) (.poster i) (s,.idle)
      ({ s with runningCount := wrapInt (s.runningCount+1)
                tasks := s.tasks ++ [⟨s.pushed.length,x⟩]
                pushed := s.pushed ++ [⟨s.pushed.length,x⟩] },.idle) := by
  have hcall := alone_next (P := pool C m n d₀) .refl (Step.call i s x)
  have hpush := push_alone C (.poster i) s none x hfree hnobody d₀
  exact alone_next (hcall.trans hpush) (Step.returnToPoster _ _)

/-- A post from outside, under a guard that asks what is posted. -/
theorem post_reach {C : Calls T B D} {d₀ : D} {ok : Guard (Thread m n) (Shared m n T D) (Point T B)}
    {c : State m n T B D} (hc : Reach (pool C m n d₀).lts ok c) (j : Fin m) (x : T)
    (hidle : c.pc (.poster j) = .idle) (hfree : c.shared.taskMutex = none)
    (hnobody : c.shared.waiters = ∅)
    (hok : ∀ d e : State m n T B D, (∀ i, i ≠ .poster j → d.pc i = c.pc i) →
      (∀ y, e.pc (.poster j) = .posting none (.lock y) → y = x) → ok d (.poster j) e) :
    Reach (pool C m n d₀).lts ok (c.move (.poster j)
      { c.shared with
          runningCount := wrapInt (c.shared.runningCount+1)
          tasks := c.shared.tasks ++ [⟨c.shared.pushed.length,x⟩]
          pushed := c.shared.pushed ++ [⟨c.shared.pushed.length,x⟩] } .idle) := by
  have hnext : ∀ {s p s' p'}, Reach (pool C m n d₀).lts ok (c.move (.poster j) s p) →
      Step C (.poster j) s p s' p' → (∀ y, p' = .posting none (.lock y) → y = x) →
      Reach (pool C m n d₀).lts ok (c.move (.poster j) s' p') := by
    intro s p s' p' hr h hy
    refine reach_next hr h (hok _ _ (fun i hi => Config.move_other c _ _ hi) ?_)
    simpa using hy
  have hstart : Reach (pool C m n d₀).lts ok (c.move (.poster j) c.shared .idle) := by
    rw [← hidle,Config.move_pc]
    exact hc
  have hcall := hnext hstart (Step.call j _ x) (by simp)
  have hlock := hnext hcall (Step.postLock _ _ none x hfree) (by simp)
  have hcount := hnext hlock (Step.postCount _ _ none x) (by simp)
  have hpush := hnext hcount (Step.postPush _ _ none x) (by simp)
  have hunlock := hnext hpush (Step.postUnlock _ _ none) (by simp)
  have hnotify := hnext hunlock (Step.postNotifyNobody _ _ none hnobody) (by simp)
  simpa [hfree] using hnext hnotify (Step.returnToPoster _ _) (by simp)

def onePost : State 1 1 Unit Unit Unit where
  shared := { startShared () with
    runningCount := 1, tasks := [⟨0,()⟩], pushed := [⟨0,()⟩] }
  pc := startPoint

theorem onePost_reach {ok : Guard (Thread 1 1) (Shared 1 1 Unit Unit) (Point Unit Unit)}
    (hok : ∀ d e : State 1 1 Unit Unit Unit, d.pc .destroyer = .alive → ok d (.poster 0) e) :
    Reach (pool returnAtOnce 1 1 ()).lts ok onePost := by
  let start : State 1 1 Unit Unit Unit := ⟨startShared (),startPoint⟩
  have hstart : Reach (pool returnAtOnce 1 1 ()).lts ok start := .init ⟨rfl,rfl⟩
  have hpost := continues_alone
    (post_new_task_alone returnAtOnce 0 (startShared ()) () rfl rfl ()) start
    fun d e hframe => hok d e (hframe .destroyer (by decide))
  have hback : ∀ s, start.move (.poster 0) s .idle = ⟨s,startPoint⟩ := start.move_pc (.poster 0)
  simp only [hback] at hpost
  exact hstart.continues hpost

theorem onePost_reachable : Reachable (pool returnAtOnce 1 1 ()).lts onePost :=
  onePost_reach fun _ _ _ => trivial

section Seen

variable {B' : Type}

/-- Where a thread stands when the calls of the tasks are seen through `f`. -/
def Point.map (f : B → B') : Point T B → Point T B'
  | .idle => .idle
  | .posting back p => .posting (back.map fun call => (call.1,f call.2)) p
  | .lockTasks => .lockTasks
  | .testPredicate => .testPredicate
  | .park => .park
  | .parked => .parked
  | .afterWait => .afterWait
  | .skip => .skip
  | .leave => .leave
  | .exited => .exited
  | .taken t => .taken t
  | .running t b => .running t (f b)
  | .lockCount => .lockCount
  | .testPositive => .testPositive
  | .decrement => .decrement
  | .testZero => .testZero
  | .testEmpty => .testEmpty
  | .notifyIdle => .notifyIdle
  | .unlockCount => .unlockCount
  | .alive => .alive
  | .stopped => .stopped
  | .joining k => .joining k
  | .destroyed => .destroyed

section Map

variable {f : B → B'} {p : Point T B}

theorem Point.map_idle : p.map f = .idle ↔ p = .idle := by
  cases p <;> simp [Point.map]

theorem Point.map_alive : p.map f = .alive ↔ p = .alive := by
  cases p <;> simp [Point.map]

theorem Point.map_lock {x : T} :
    p.map f = .posting none (.lock x) ↔ p = .posting none (.lock x) := by
  cases p <;> simp [Point.map]

end Map

def mapState (f : B → B') (c : State m n T B D) : State m n T B' D :=
  ⟨c.shared,fun i => (c.pc i).map f⟩

/-- Seen through `f` the calls `C` do what the calls `C'` may do. -/
structure SeenAs (f : B → B') (C : Calls T B D) (C' : Calls T B' D) : Prop where
  call : ∀ t, f (C.call t) = C'.call t
  act : ∀ {b d b' d'}, C.act b d b' d' → C'.act (f b) d (f b') d'
  post : ∀ {b x b'}, C.post b x b' → C'.post (f b) x (f b')
  returned : ∀ {b}, C.returned b → C'.returned (f b)

variable {f : B → B'} {C : Calls T B D} {C' : Calls T B' D} {d₀ : D}

theorem SeenAs.step (hf : SeenAs f C C') {i : Thread m n} {s s' : Shared m n T D}
    {p p' : Point T B} (h : Step C i s p s' p') : Step C' i s (p.map f) s' (p'.map f) := by
  cases h with
  | taken w s t =>
    have htaken := Step.taken (C := C') w s t
    rwa [← hf.call] at htaken
  | act w s t b b' d' h => exact Step.act w s t _ _ _ (hf.act h)
  | taskPosts w s t b x b' h => exact Step.taskPosts w s t _ x _ (hf.post h)
  | taskReturns w s t b h => exact Step.taskReturns w s t _ (hf.returned h)
  | _ => constructor <;> assumption

/-- What is known of every run with the calls `C'` is known of every run with the calls `C`. -/
theorem SeenAs.reach (hf : SeenAs f C C') {ok : Guard (Thread m n) (Shared m n T D) (Point T B)}
    {ok' : Guard (Thread m n) (Shared m n T D) (Point T B')}
    (hok : ∀ c i d, ok c i d → ok' (mapState f c) i (mapState f d)) {c : State m n T B D}
    (hc : Reach (pool C m n d₀).lts ok c) : Reach (pool C' m n d₀).lts ok' (mapState f c) := by
  induction hc with
  | init h =>
    obtain ⟨hs,hp⟩ := h
    refine .init ⟨hs,funext fun i => ?_⟩
    simp only [mapState,hp]
    cases i <;> rfl
  | step _ hrun h ih =>
    refine ih.step (hok _ _ _ hrun) ⟨hf.step h.1,fun j hj => ?_⟩
    simp only [mapState,h.2 j hj]

end Seen

end SqlThread
end AlephSql
