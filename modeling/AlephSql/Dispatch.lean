import AlephSql.Transition
import Mathlib.Algebra.Order.Group.Multiset
import Mathlib.Data.Multiset.AddSub

/-! What a dispatcher of jobs is for: jobs are submitted once, leave the queue in the order
they came, run, and complete. Who submits, takes or runs them is left open. -/
namespace Dispatch

open Transition

variable {J : Type*}

structure Board (J : Type*) where
  submitted : List J
  queue : List J
  taken : List J
  running : Multiset J
  completed : Multiset J

inductive Event (J : Type*)
  | submit (j : J) | take (j : J) | complete (j : J)

inductive Step : Board J → Event J → Board J → Prop
  | submit (b : Board J) (j : J) (fresh : j ∉ b.submitted) :
      Step b (.submit j) { b with submitted := b.submitted ++ [j], queue := b.queue ++ [j] }
  | take (b : Board J) (j : J) (rest : List J) (front : b.queue = j :: rest) :
      Step b (.take j) { b with queue := rest, taken := b.taken ++ [j],
                                running := j ::ₘ b.running }
  | complete (b : Board J) (j : J) (others : Multiset J) (runs : b.running = j ::ₘ others) :
      Step b (.complete j) { b with running := others, completed := j ::ₘ b.completed }

def board (J : Type*) : Lts (Board J) (Event J) where
  init b := b = ⟨[],[],[],0,0⟩
  step := Step

/-- Every job submitted is waiting, running or completed, and waits in its place. -/
structure Accounted (b : Board J) : Prop where
  order : b.submitted = b.taken ++ b.queue
  once : b.submitted.Nodup
  split : (b.taken : Multiset J) = b.running + b.completed

theorem step_accounted {b b' : Board J} {e : Event J} (h : Step b e b') (hb : Accounted b) :
    Accounted b' := by
  cases h with
  | submit j fresh =>
    refine ⟨?_,?_,hb.split⟩
    · simp [hb.order]
    · simp only [List.nodup_append,List.nodup_singleton,List.mem_singleton]
      refine ⟨hb.once,trivial,?_⟩
      rintro a ha _ rfl rfl
      exact fresh ha
  | take j rest front =>
    refine ⟨?_,hb.once,?_⟩
    · simp [hb.order,front]
    · rw [← Multiset.coe_add,hb.split,Multiset.cons_add,← Multiset.singleton_add,add_comm]
      rfl
  | complete j others runs =>
    refine ⟨hb.order,hb.once,?_⟩
    simp only
    rw [hb.split,runs,Multiset.cons_add,Multiset.add_cons]

theorem accounted {b : Board J} (h : Reachable (board J) b) : Accounted b := by
  refine h.invariant (I := Accounted) ?_ fun _ hb _ hs => step_accounted hs hb
  rintro b rfl
  exact ⟨rfl,List.nodup_nil,rfl⟩

theorem Accounted.completed_le {b : Board J} (h : Accounted b) :
    b.completed ≤ (b.taken : Multiset J) := by
  rw [h.split]
  exact Multiset.le_add_left _ _

theorem Accounted.drained {b : Board J} (h : Accounted b) (hq : b.queue = [])
    (hr : b.running = 0) : b.completed = (b.submitted : Multiset J) := by
  rw [h.order,hq,List.append_nil,h.split,hr,zero_add]

theorem Accounted.next {b : Board J} (h : Accounted b) {j : J} {rest : List J}
    (front : b.queue = j :: rest) : b.submitted[b.taken.length]? = some j := by
  simp [h.order,front]

/-- Of two jobs the one submitted first is taken first. -/
theorem Accounted.in_order {b : Board J} (h : Accounted b) {j k : J}
    (hjk : [j,k].Sublist b.submitted) (hk : k ∈ b.taken) : [j,k].Sublist b.taken := by
  have honce := h.once
  rw [h.order] at hjk honce
  have hqueue : k ∉ b.queue := fun hmem => (List.nodup_append.mp honce).2.2 k hk k hmem rfl
  obtain ⟨front,back,hsplit,hfront,hback⟩ := List.sublist_append_iff.mp hjk
  rcases List.eq_nil_or_concat back with hnone | ⟨init,last,hlast⟩
  · rwa [hsplit,hnone,List.append_nil]
  · -- a part in the queue would end with `k`
    have hend : last = k := by
      have hends := congrArg List.getLast? hsplit
      simpa [hlast] using hends.symm
    exact absurd (hback.subset (by simp [hlast,hend])) hqueue

end Dispatch
