import AlephSql.Completion

/-! A pool lives in two phases. Until `~sql_thread` stores `M_stop` no worker takes a task, so all
that happens is that threads outside post; from then on only running tasks do. -/
namespace AlephSql
namespace SqlThread

open Transition Interleave

variable {m n : ℕ} {T B D : Type} {C : Calls T B D} {d₀ : D}

structure Unserved (d₀ : D) (c : State m n T B D) : Prop where
  queued : c.shared.tasks = c.shared.pushed
  started : c.shared.started = []
  finished : c.shared.finished = []
  hands : ∀ i, current (c.pc i) = 0
  data : c.shared.data = d₀

section Steps

variable {i : Thread m n} {s s' : Shared m n T D} {p p' : Point T B}

theorem step_before_stop (h : Step C i s p s' p') (hp : Placed s p) (hstop : s.stop = false) :
    s'.started = s.started ∧ s'.finished = s.finished ∧ s'.data = s.data := by
  cases h with
  | take w s t rest front => simp_all
  | act w s t b b' d' h => simp_all
  | taskReturns w s t b h => simp_all
  | _ => exact ⟨rfl,rfl,rfl⟩

theorem current_before_stop (hp : Placed s p) (hstop : s.stop = false) : current p = 0 := by
  cases p with
  | posting k q => cases k <;> simp_all [current]
  | _ => simp_all [current]

theorem push_of_pushed (h : Step C i s p s' p') (hpushed : s'.pushed ≠ s.pushed) :
    ∃ k x, p = .posting k (.push x) := by
  cases h with
  | postPush i s k x => exact ⟨k,x,rfl⟩
  | _ => exact absurd rfl hpushed

end Steps

section Reachable

variable {ok : Guard (Thread m n) (Shared m n T D) (Point T B)} {c d : State m n T B D}

theorem logs_before_stop (hc : Reach (pool C m n d₀).lts ok c) (hstop : c.shared.stop = false) :
    c.shared.started = [] ∧ c.shared.finished = [] ∧ c.shared.data = d₀ := by
  revert hstop
  refine hc.invariant (I := fun c => c.shared.stop = false →
    c.shared.started = [] ∧ c.shared.finished = [] ∧ c.shared.data = d₀) ?_ ?_
  · rintro c ⟨hs,-⟩ -
    rw [hs]
    exact ⟨rfl,rfl,rfl⟩
  · rintro c i d hc hlogs - ⟨hstep,-⟩ hstop
    have hbefore : c.shared.stop = false := by
      by_contra hset
      simp [step_stop hstep (by simpa using hset)] at hstop
    obtain ⟨hstarted,hfinished,hdata⟩ := step_before_stop hstep (placed hc i) hbefore
    rw [hstarted,hfinished,hdata]
    exact hlogs hbefore

theorem unserved (hc : Reach (pool C m n d₀).lts ok c) (hstop : c.shared.stop = false) :
    Unserved d₀ c := by
  obtain ⟨hstarted,hfinished,hdata⟩ := logs_before_stop hc hstop
  refine ⟨?_,hstarted,hfinished,fun i => current_before_stop (placed hc i) hstop,hdata⟩
  have horder : c.shared.pushed = c.shared.started ++ c.shared.tasks := (jobs_accounted hc).order
  rw [horder,hstarted,List.nil_append]

/-- A push is made by a thread outside before the shutdown, or by a running task in it. -/
theorem pusher_phase (hc : Reach (pool C m n d₀).lts PostsBeforeShutdown c) {i : Thread m n}
    (h : (pool C m n d₀).lts.step c i d) (hpushed : d.shared.pushed ≠ c.shared.pushed) :
    (∃ j, i = .poster j ∧ c.shared.stop = false) ∨ (∃ w, i = .worker w ∧ c.shared.stop = true) := by
  obtain ⟨k,x,hp⟩ := push_of_pushed h.1 hpushed
  have hbelongs := belongs_pc hc i
  have hplaced := placed hc i
  rw [hp] at hbelongs hplaced
  cases i with
  | poster j =>
    left
    refine ⟨j,rfl,?_⟩
    have halive : c.pc .destroyer = .alive := by
      by_contra hstart
      simp [posters_idle hc hstart j] at hp
    exact running_stop_unset hc halive
  | worker w =>
    right
    cases k with
    | none => simp at hbelongs
    | some b => exact ⟨w,rfl,hplaced⟩
  | destroyer => simp at hbelongs

end Reachable
end SqlThread

namespace AsyncPool

open Transition Interleave Sqlite Database Delivery SqlThread

variable {O K : Type} [DecidableEq O]

theorem submitted_then_run (E : Engine) (R : Residue) (behaves : Behaviour O) (m n : ℕ)
    (objects : O → Object) (calls : History) :
    (∀ c : AsyncState m n O K, Reachable (asyncPool E R behaves m n objects calls).lts c →
      c.shared.stop = false → Unserved (fresh objects calls) c) ∧
    (∀ (c d : AsyncState m n O K) i,
      Reach (asyncPool E R behaves m n objects calls).lts PostsBeforeShutdown c →
      (asyncPool E R behaves m n objects calls).lts.step c i d →
      d.shared.pushed ≠ c.shared.pushed →
      (∃ j, i = .poster j ∧ c.shared.stop = false) ∨
        (∃ w, i = .worker w ∧ c.shared.stop = true)) :=
  ⟨fun _ hc hstop => unserved hc hstop,fun _ _ _ hc h hpushed => pusher_phase hc h hpushed⟩

theorem submitted_then_run_open :
    (∃ c : AsyncState 1 1 Unit Unit, c.shared.pushed = [taskOf openOnce] ∧
      Unserved (fresh (fun _ => {}) [.config]) c) ∧
    (∃ (c d : AsyncState 1 1 Unit Unit) (i : Thread 1 1),
      d.shared.pushed = c.shared.pushed ++ [taskOf openOnce] ∧
        ((∃ j, i = .poster j ∧ c.shared.stop = false) ∨
          (∃ w, i = .worker w ∧ c.shared.stop = true))) := by
  have hboth := submitted_then_run (O := Unit) (K := Unit) sampleEngine ⟨id,id⟩
    (fun _ _ => False) 1 1 (fun _ => {}) [.config]
  let start : AsyncState 1 1 Unit Unit := ⟨startShared (fresh (fun _ => {}) [.config]),startPoint⟩
  have hstart : Reach smallPool.lts PostsBeforeShutdown start := .init ⟨rfl,rfl⟩
  have hcall := reach_move hstart (.poster 0) (Step.call 0 _ (.operation openOnce.toSubmission))
    ⟨by simp,fun _ _ _ => rfl⟩
  have hlock := reach_next hcall (Step.postLock _ _ none _ rfl) ⟨by simp,by simp⟩
  have hcount := reach_next hlock (Step.postCount _ _ none _) ⟨by simp,by simp⟩
  set counted := start.move (.poster 0) _ (.posting none (.push (.operation openOnce.toSubmission)))
  obtain ⟨d,hpush,hnew,hstop⟩ : ∃ d, smallPool.lts.step counted (.poster 0) d ∧
      d.shared.pushed = [taskOf openOnce] ∧ d.shared.stop = false := by
    have hstep := Step.postPush (C := smallCalls) (.poster 0) counted.shared none
      (.operation openOnce.toSubmission)
    have hpc : counted.pc (.poster 0) = .posting none (.push (.operation openOnce.toSubmission)) :=
      Config.move_self _ _ _ _
    rw [← hpc] at hstep
    exact ⟨_,Threads.step_move (P := smallPool) hstep,rfl,rfl⟩
  have hreach : Reachable smallPool.lts d :=
    (hcount.step ⟨by simp,by simp [counted]⟩ hpush).reachable
  have hchanged : d.shared.pushed ≠ counted.shared.pushed := by
    rw [hnew]
    exact List.cons_ne_nil _ _
  exact ⟨⟨d,hnew,hboth.1 d hreach hstop⟩,counted,d,.poster 0,hnew,
    hboth.2 _ _ _ hcount hpush hchanged⟩

end AsyncPool
end AlephSql
