import AlephSql.PoolInvariant
import Mathlib.Algebra.Order.BigOperators.Group.Finset

/-! `M_thread_running_count` is raised under one mutex and lowered under another. As long as
it never leaves the range of `int` it counts the queued tasks, the tasks being run and the
posts between their increment and their `push_back`. -/
namespace AlephSql
namespace SqlThread

open Transition Interleave

variable {m n : ℕ} {T B D : Type} {C : Calls T B D} {d₀ : D}

def pushing : PostPoint T → ℤ
  | .push _ => 1
  | _ => 0

/-- What a thread contributes to the count: the task between `pop_front` and the decrement,
and the task it is about to push. -/
def counted : Point T B → ℤ
  | .posting none p => pushing p
  | .posting (some _) p => 1+pushing p
  | .taken _ | .running _ _ | .lockCount | .testPositive | .decrement => 1
  | _ => 0

theorem pushing_nonneg (p : PostPoint T) : 0 ≤ pushing p := by
  cases p <;> simp [pushing]

theorem counted_nonneg (p : Point T B) : 0 ≤ counted p := by
  cases p with
  | posting k p =>
    have hp := pushing_nonneg p
    cases k <;> simp only [counted] <;> omega
  | _ => simp [counted]

theorem wrapInt_of_range {z : ℤ} (hlow : -2^31 ≤ z) (hhigh : z < 2^31) : wrapInt z = z := by
  unfold wrapInt
  apply Int.bmod_eq_of_le <;> omega

theorem wrapInt_lt (z : ℤ) : wrapInt z < 2^31 := by
  have h := Int.bmod_lt (x := z) (m := 2^32) (by decide)
  unfold wrapInt
  omega

/-- Runs in which no increment meets the largest `int`. -/
def CountInRange : Guard (Thread m n) (Shared m n T D) (Point T B) := fun c i _ =>
  ∀ k x, c.pc i = .posting k (.count x) → c.shared.runningCount < 2^31-1

theorem step_runningCount_lt {i : Thread m n} {s s' : Shared m n T D} {p p' : Point T B}
    (h : Step C i s p s' p') (hs : s.runningCount < 2^31) : s'.runningCount < 2^31 := by
  cases h with
  | postCount => exact wrapInt_lt _
  | decrement => exact wrapInt_lt _
  | _ => exact hs

/-- One action moves the count together with the queue and the mover's contribution. -/
theorem step_count {i : Thread m n} {s s' : Shared m n T D} {p p' : Point T B}
    (h : Step C i s p s' p') (hmine : counted p ≤ s.runningCount)
    (hhigh : s.runningCount < 2^31)
    (hroom : ∀ k x, p = .posting k (.count x) → s.runningCount < 2^31-1) :
    s'.runningCount+(s.tasks.length+counted p) = s.runningCount+(s'.tasks.length+counted p') := by
  have hnonneg := counted_nonneg p
  cases h with
  | postCount i s k x =>
    have hlt := hroom k x rfl
    rw [wrapInt_of_range (by omega) (by omega)]
    cases k <;> simp only [counted,pushing] <;> omega
  | decrement w s =>
    simp only [counted] at hmine
    rw [wrapInt_of_range (by omega) (by omega)]
    simp only [counted]
    omega
  | notPositive w s h =>
    simp only [counted] at hmine
    omega
  | postPush i s k x =>
    cases k <;> simp only [counted,pushing,List.length_append,List.length_singleton] <;> omega
  | take w s t rest front =>
    simp only [counted,front,List.length_cons]
    omega
  | postLock i s k | postUnlock i s k | postNotifyNobody i s k | postNotifyOne i s k =>
    cases k <;> simp [counted,pushing]
  | _ => simp [counted,pushing]

section Reachable

variable {ok : Guard (Thread m n) (Shared m n T D) (Point T B)} {c : State m n T B D}

theorem runningCount_lt (hc : Reach (pool C m n d₀).lts ok c) : c.shared.runningCount < 2^31 := by
  refine hc.invariant (I := fun c => c.shared.runningCount < 2^31) ?_ ?_
  · rintro c ⟨hs,-⟩
    simp [hs,startShared]
  · intro c i d _ hlt _ h
    exact step_runningCount_lt h.1 hlt

theorem counted_le_sum (c : State m n T B D) (i : Thread m n) :
    counted (c.pc i) ≤ ∑ j, counted (c.pc j) :=
  Finset.single_le_sum (f := fun j => counted (c.pc j)) (fun _ _ => counted_nonneg _)
    (Finset.mem_univ i)

theorem sum_counted_nonneg (c : State m n T B D) : 0 ≤ ∑ i, counted (c.pc i) :=
  Finset.sum_nonneg fun _ _ => counted_nonneg _

theorem runningCount_eq (hc : Reach (pool C m n d₀).lts CountInRange c) :
    c.shared.runningCount = c.shared.tasks.length+∑ i, counted (c.pc i) := by
  refine share_invariant (A := Shared.runningCount) (B := fun s => (s.tasks.length : ℤ))
    (g := fun _ => counted) ?_ ?_ hc
  · rintro s pc ⟨rfl,rfl⟩
    have hnone : ∑ i : Thread m n, counted (startPoint i : Point T B) = 0 :=
      Finset.sum_eq_zero fun i _ => by cases i <;> rfl
    simp [startShared,hnone]
  · intro c d i hc hok h hsum
    refine step_count h ?_ (runningCount_lt hc) hok
    have hle := counted_le_sum c i
    omega

theorem runningCount_pos_of_tasks (hc : Reach (pool C m n d₀).lts CountInRange c)
    (h : c.shared.tasks ≠ []) : 0 < c.shared.runningCount := by
  have hlength := List.length_pos_iff.mpr h
  have hsum := sum_counted_nonneg c
  rw [runningCount_eq hc]
  omega

theorem runningCount_nonneg (hc : Reach (pool C m n d₀).lts CountInRange c) :
    0 ≤ c.shared.runningCount := by
  have hsum := sum_counted_nonneg c
  rw [runningCount_eq hc]
  omega

end Reachable

section Exact

def inHand : Point T B → Bool
  | .taken _ | .running _ _ | .posting (some _) _ | .lockCount | .testPositive | .decrement => true
  | _ => false

def atPush : Point T B → Bool
  | .posting _ (.push _) => true
  | _ => false

variable {c d : State m n T B D}

def serving (c : State m n T B D) : Finset (Fin n) :=
  Finset.univ.filter fun w => inHand (c.pc (.worker w))

def pushers (c : State m n T B D) : Finset (Thread m n) :=
  Finset.univ.filter fun i => atPush (c.pc i)

/-- The tasks queued, in the hands of a worker, or about to be pushed. -/
def outstanding (c : State m n T B D) : ℕ :=
  c.shared.tasks.length+(serving c).card+(pushers c).card

/-- Runs in which there are always fewer than 2^31 outstanding tasks. -/
def FewOutstanding : Guard (Thread m n) (Shared m n T D) (Point T B) :=
  fun _ _ d => outstanding d < 2^31

instance {i : Thread m n} : Decidable (FewOutstanding c i d) :=
  inferInstanceAs (Decidable (outstanding d < 2^31))

theorem counted_eq (p : Point T B) :
    counted p = (if inHand p then 1 else 0)+(if atPush p then 1 else 0) := by
  cases p with
  | posting k p => cases k <;> cases p <;> rfl
  | _ => rfl

theorem worker_of_inHand {i : Thread m n} {p : Point T B} (hbelongs : belongs i p = true)
    (h : inHand p = true) : ∃ w, i = .worker w := by
  cases i with
  | worker w => exact ⟨w,rfl⟩
  | poster i =>
    cases p with
    | posting k p => cases k <;> simp_all [inHand]
    | _ => simp_all [inHand]
  | destroyer => cases p <;> simp_all [inHand]

theorem card_serving (hbelongs : ∀ i, belongs i (c.pc i) = true) :
    (Finset.univ.filter fun i => inHand (c.pc i) = true).card = (serving c).card := by
  have hworkers : (Finset.univ.filter fun i => inHand (c.pc i) = true) =
      (serving c).map ⟨Thread.worker,fun _ _ h => Thread.worker.inj h⟩ := by
    ext i
    simp only [serving,Finset.mem_filter,Finset.mem_univ,true_and,Finset.mem_map]
    constructor
    · intro hi
      obtain ⟨w,rfl⟩ := worker_of_inHand (hbelongs i) hi
      exact ⟨w,hi,rfl⟩
    · rintro ⟨w,hw,rfl⟩
      exact hw
  rw [hworkers,Finset.card_map]

theorem sum_counted (hbelongs : ∀ i, belongs i (c.pc i) = true) :
    ∑ i, counted (c.pc i) = (serving c).card+(pushers c).card := by
  have hsplit : ∑ i, counted (c.pc i) =
      ∑ i, (if inHand (c.pc i) then 1 else 0)+∑ i, (if atPush (c.pc i) then 1 else 0) := by
    rw [← Finset.sum_add_distrib]
    exact Finset.sum_congr rfl fun i _ => counted_eq (c.pc i)
  rw [hsplit,Finset.sum_boole,Finset.sum_boole,card_serving hbelongs]
  rfl

theorem step_postCount {i : Thread m n} {s s' : Shared m n T D} {p p' : Point T B}
    {k : Option (Task T × B)} {x : T} (h : Step C i s p s' p') (hp : p = .posting k (.count x)) :
    p' = .posting k (.push x) ∧ s'.tasks = s.tasks := by
  cases h <;> simp_all

theorem outstanding_postCount (hc : ∀ i, belongs i (c.pc i) = true)
    (hd : ∀ i, belongs i (d.pc i) = true) {i : Thread m n} {k : Option (Task T × B)} {x : T}
    (h : (pool C m n d₀).lts.step c i d) (hi : c.pc i = .posting k (.count x)) :
    outstanding d = outstanding c+1 := by
  obtain ⟨hstep,hframe⟩ := h
  obtain ⟨hi',htasks⟩ := step_postCount hstep hi
  have hsum := sum_move (fun _ => counted) hframe
  rw [hi,hi',sum_counted hc,sum_counted hd] at hsum
  rw [outstanding,outstanding,htasks]
  cases k <;> simp only [counted,pushing] at hsum <;> omega

theorem countInRange_of_few (hc : Reach (pool C m n d₀).lts FewOutstanding c) :
    Reach (pool C m n d₀).lts CountInRange c := by
  induction hc with
  | init h => exact .init h
  | @step c d i hc hok h ih =>
    refine .step ih (fun k x hi => ?_) h
    have hmore := outstanding_postCount (belongs_pc hc) (belongs_pc (hc.step hok h)) h hi
    have hfew : outstanding d < 2^31 := hok
    have hcount := runningCount_eq ih
    rw [sum_counted (belongs_pc hc)] at hcount
    simp only [outstanding] at hmore hfew
    omega

/-- The counter is exact: it is never negative, the test before the decrement passes, and
whoever loads 0 from it does so while no task is queued, running or about to be pushed. -/
structure CountExact (c : State m n T B D) : Prop where
  count : c.shared.runningCount = c.shared.tasks.length+(serving c).card+(pushers c).card
  nonneg : 0 ≤ c.shared.runningCount
  positive : ∀ w : Fin n, c.pc (.worker w) = .testPositive → 0 < c.shared.runningCount
  idle : c.shared.runningCount = 0 → c.shared.tasks = [] ∧ serving c = ∅ ∧ pushers c = ∅

theorem countExact_of_count
    (h : c.shared.runningCount = c.shared.tasks.length+(serving c).card+(pushers c).card) :
    CountExact c := by
  refine ⟨h,by omega,fun w hw => ?_,fun hzero => ?_⟩
  · have hmem : w ∈ serving c := by
      rw [serving,Finset.mem_filter,hw]
      exact ⟨Finset.mem_univ w,rfl⟩
    have hpos := Finset.card_pos.mpr ⟨w,hmem⟩
    omega
  · rw [← List.length_eq_zero_iff,← Finset.card_eq_zero,← Finset.card_eq_zero]
    omega

end Exact

/-- In every state of a run with fewer than 2^31 outstanding tasks the counter is exact. -/
theorem running_count_exact (C : Calls T B D) (m n : ℕ) (d₀ : D) (c : State m n T B D)
    (hc : Reach (pool C m n d₀).lts FewOutstanding c) : CountExact c := by
  have hbelongs := belongs_pc hc
  have hcount := runningCount_eq (countInRange_of_few hc)
  rw [sum_counted hbelongs] at hcount
  exact countExact_of_count (by omega)

def postCounted : State 1 1 Unit Unit Unit where
  shared := { startShared () with runningCount := 1, taskMutex := some (.poster 0) }
  pc := Function.update startPoint (.poster 0) (.posting none (.push ()))

theorem postCounted_reach : Reach (pool returnAtOnce 1 1 ()).lts FewOutstanding postCounted := by
  let start : State 1 1 Unit Unit Unit := ⟨startShared (),startPoint⟩
  have hstart : Reach (pool returnAtOnce 1 1 ()).lts FewOutstanding start := .init ⟨rfl,rfl⟩
  have hcall := reach_move hstart (.poster 0) (Step.call 0 _ ()) (by decide)
  have hlock := reach_next hcall (Step.postLock _ _ none () rfl) (by decide)
  exact reach_next hlock (Step.postCount _ _ none ()) (by decide)

theorem running_count_exact_one_post :
    CountExact postCounted ∧ postCounted.shared.runningCount = 1 ∧
      postCounted.shared.tasks = [] :=
  ⟨running_count_exact returnAtOnce 1 1 () postCounted postCounted_reach,rfl,rfl⟩

end SqlThread
end AlephSql
