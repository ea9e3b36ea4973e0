import AlephSql.Transition
import Mathlib.Algebra.BigOperators.Ring.Finset
import Mathlib.Data.Fintype.BigOperators
import Mathlib.Tactic.Abel

/-! Threads over shared memory: each step is one atomic action of one thread on the shared
state and its own program counter. The rules below give lock ownership, per-thread facts
and conserved sums from a lemma about a single action. -/
namespace Interleave

open Transition

/-- `step i s p s' p'`: thread `i`, at `p` in shared state `s`, moves to `p'` and leaves `s'`. -/
structure Threads (ι σ π : Type*) where
  init : σ → (ι → π) → Prop
  step : ι → σ → π → σ → π → Prop

structure Config (ι σ π : Type*) where
  shared : σ
  pc : ι → π

variable {ι σ π : Type*}

/-- The label of a global step is the thread that moves; all other counters stay. -/
def Threads.lts (P : Threads ι σ π) : Lts (Config ι σ π) ι where
  init c := P.init c.shared c.pc
  step c i d := P.step i c.shared (c.pc i) d.shared (d.pc i) ∧ ∀ j, j ≠ i → d.pc j = c.pc j

def Config.move [DecidableEq ι] (c : Config ι σ π) (i : ι) (s : σ) (p : π) : Config ι σ π :=
  ⟨s,Function.update c.pc i p⟩

@[simp] theorem Config.move_shared [DecidableEq ι] (c : Config ι σ π) (i : ι) (s : σ) (p : π) :
    (c.move i s p).shared = s := rfl

@[simp] theorem Config.move_self [DecidableEq ι] (c : Config ι σ π) (i : ι) (s : σ) (p : π) :
    (c.move i s p).pc i = p := by simp [Config.move]

@[simp] theorem Config.move_other [DecidableEq ι] (c : Config ι σ π) {i j : ι} (s : σ) (p : π)
    (h : j ≠ i) : (c.move i s p).pc j = c.pc j := by simp [Config.move,h]

theorem Threads.step_move [DecidableEq ι] {P : Threads ι σ π} {c : Config ι σ π} {i : ι}
    {s : σ} {p : π} (h : P.step i c.shared (c.pc i) s p) : P.lts.step c i (c.move i s p) := by
  refine ⟨by simpa using h,fun j hj => ?_⟩
  simp [hj]

abbrev Guard (ι σ π : Type*) := Config ι σ π → ι → Config ι σ π → Prop

variable {P : Threads ι σ π} {ok : Guard ι σ π}

theorem reach_move [DecidableEq ι] {c : Config ι σ π} (hc : Reach P.lts ok c) (i : ι) {s : σ}
    {p : π} (h : P.step i c.shared (c.pc i) s p) (hok : ok c i (c.move i s p)) :
    Reach P.lts ok (c.move i s p) :=
  .step hc hok (Threads.step_move h)

theorem reach_next [DecidableEq ι] {c : Config ι σ π} {i : ι} {s s' : σ} {p p' : π}
    (hc : Reach P.lts ok (c.move i s p)) (h : P.step i s p s' p')
    (hok : ok (c.move i s p) i (c.move i s' p')) : Reach P.lts ok (c.move i s' p') := by
  have hnext := reach_move hc i (s:=s') (p:=p') (by simpa using h)
    (by simpa [Config.move] using hok)
  simpa [Config.move] using hnext

section Alone

/-- What thread `i` can do while all others stand still. -/
abbrev Alone (P : Threads ι σ π) (i : ι) : σ × π → σ × π → Prop :=
  Relation.ReflTransGen fun a b => P.step i a.1 a.2 b.1 b.2

theorem alone_next {i : ι} {a : σ × π} {s s' : σ} {p p' : π} (h : Alone P i a (s,p))
    (hstep : P.step i s p s' p') : Alone P i a (s',p') := h.tail hstep

variable [DecidableEq ι]

@[simp] theorem Config.move_move (c : Config ι σ π) (i : ι) (s s' : σ) (p p' : π) :
    (c.move i s p).move i s' p' = c.move i s' p' := by simp [Config.move]

theorem Config.move_pc (c : Config ι σ π) (i : ι) (s : σ) :
    c.move i s (c.pc i) = ⟨s,c.pc⟩ := by simp [Config.move]

/-- A run of one thread by itself is a run of the whole system. -/
theorem continues_alone {i : ι} {a b : σ × π} (h : Alone P i a b) (c : Config ι σ π)
    (hok : ∀ d e : Config ι σ π, (∀ j, j ≠ i → d.pc j = c.pc j) → ok d i e) :
    Continues P.lts ok (c.move i a.1 a.2) (c.move i b.1 b.2) := by
  induction h with
  | refl => exact .refl
  | @tail b e _ hstep ih =>
    refine ih.tail ⟨i,hok _ _ fun j hj => Config.move_other c _ _ hj,?_⟩
    have hmove := Threads.step_move (P := P) (c := c.move i b.1 b.2) (i := i)
      (s := e.1) (p := e.2) (by simpa using hstep)
    simpa using hmove

end Alone

section Local

/-- A fact about each thread and the shared state. The moving thread must re-establish it,
and no other thread may spoil it. -/
theorem local_invariant {Q : ι → σ → π → Prop}
    (hinit : ∀ s pc, P.init s pc → ∀ i, Q i s (pc i))
    (hself : ∀ {c d : Config ι σ π} {i}, Reach P.lts ok c → ok c i d →
      P.step i c.shared (c.pc i) d.shared (d.pc i) → (∀ j, Q j c.shared (c.pc j)) →
      Q i d.shared (d.pc i))
    (hother : ∀ {c d : Config ι σ π} {i j}, j ≠ i → Reach P.lts ok c → ok c i d →
      P.step i c.shared (c.pc i) d.shared (d.pc i) → (∀ j, Q j c.shared (c.pc j)) →
      Q j d.shared (c.pc j))
    {c : Config ι σ π} (hc : Reach P.lts ok c) : ∀ i, Q i c.shared (c.pc i) := by
  refine hc.invariant (I := fun c => ∀ i, Q i c.shared (c.pc i))
    (fun s h => hinit _ _ h) ?_
  rintro c i d hc hq hok ⟨hstep,hframe⟩ j
  by_cases hj : j = i
  · subst hj
    exact hself hc hok hstep hq
  · rw [hframe j hj]
    exact hother hj hc hok hstep hq

theorem watched_invariant (w : ι) {Q : σ → π → Prop}
    (hinit : ∀ s pc, P.init s pc → Q s (pc w))
    (hself : ∀ {c d : Config ι σ π}, Reach P.lts ok c → ok c w d →
      P.step w c.shared (c.pc w) d.shared (d.pc w) → Q c.shared (c.pc w) → Q d.shared (d.pc w))
    (hother : ∀ {c d : Config ι σ π} {i}, i ≠ w → Reach P.lts ok c → ok c i d →
      P.step i c.shared (c.pc i) d.shared (d.pc i) → Q c.shared (c.pc w) → Q d.shared (c.pc w))
    {c : Config ι σ π} (hc : Reach P.lts ok c) : Q c.shared (c.pc w) := by
  refine local_invariant (Q := fun i s p => i = w → Q s p) ?_ ?_ ?_ hc w rfl
  · rintro s pc h _ rfl
    exact hinit s pc h
  · rintro c d i hc hok h hq rfl
    exact hself hc hok h (hq i rfl)
  · rintro c d i j hj hc hok h hq rfl
    exact hother (Ne.symm hj) hc hok h (hq j rfl)

end Local

section Lock

/-- What one action of thread `i` may do to a lock: take it when free, give it back, or leave
both the lock and its own standing alone. -/
def LockAction (i : ι) (lock lock' : Option ι) (holds holds' : Bool) : Prop :=
  (lock = none ∧ lock' = some i ∧ holds = false ∧ holds' = true) ∨
  (holds = true ∧ lock' = none ∧ holds' = false) ∨
  (lock' = lock ∧ holds' = holds)

/-- The lock names exactly the thread whose program counter lies inside the locked region. -/
theorem owner_invariant (lock : σ → Option ι) (holds : π → Bool)
    (hinit : ∀ s pc, P.init s pc → lock s = none ∧ ∀ i, holds (pc i) = false)
    (hstep : ∀ {i s p s' p'}, P.step i s p s' p' →
      LockAction i (lock s) (lock s') (holds p) (holds p'))
    {c : Config ι σ π} (hc : Reach P.lts ok c) (i : ι) :
    holds (c.pc i) = true ↔ lock c.shared = some i := by
  revert i
  refine hc.invariant (I := fun c => ∀ i, holds (c.pc i) = true ↔ lock c.shared = some i) ?_ ?_
  · intro c h i
    obtain ⟨hl,hp⟩ := hinit _ _ h
    simp [hl,hp i]
  · rintro c i d - hown - ⟨hs,hframe⟩ j
    rcases hstep hs with ⟨hfree,htake,hout,hin⟩ | ⟨hin,hfree,hout⟩ | ⟨hl,hp⟩
    · by_cases hj : j = i
      · subst hj; simp [hin,htake]
      · have hno : ¬holds (c.pc j) = true := by simp [hown j,hfree]
        rw [hframe j hj,htake]
        simp [hno,Ne.symm hj]
    · by_cases hj : j = i
      · subst hj; simp [hout,hfree]
      · have hmine := (hown i).mp hin
        have hno : ¬holds (c.pc j) = true := by
          rw [hown j,hmine]
          simpa using Ne.symm hj
        rw [hframe j hj,hfree]
        simp [hno]
    · by_cases hj : j = i
      · subst hj; rw [hp,hl]; exact hown j
      · rw [hframe j hj,hl]; exact hown j

end Lock

section Shares

variable [Fintype ι] {M : Type*} [AddCancelCommMonoid M]

theorem sum_move (g : ι → π → M) {pc pc' : ι → π} {i : ι} (h : ∀ j, j ≠ i → pc' j = pc j) :
    ∑ j, g j (pc' j) + g i (pc i) = ∑ j, g j (pc j) + g i (pc' i) := by
  classical
  have hrest : ∑ j ∈ Finset.univ.erase i, g j (pc' j) = ∑ j ∈ Finset.univ.erase i, g j (pc j) :=
    Finset.sum_congr rfl fun j hj => by rw [h j (Finset.ne_of_mem_erase hj)]
  rw [← Finset.add_sum_erase _ (fun j => g j (pc' j)) (Finset.mem_univ i),
    ← Finset.add_sum_erase _ (fun j => g j (pc j)) (Finset.mem_univ i),hrest]
  abel

/-- A quantity that the shared state and the threads' shares always make up together. -/
theorem share_invariant {A B : σ → M} {g : ι → π → M}
    (hinit : ∀ s pc, P.init s pc → A s = B s + ∑ i, g i (pc i))
    (hstep : ∀ {c d : Config ι σ π} {i}, Reach P.lts ok c → ok c i d →
      P.step i c.shared (c.pc i) d.shared (d.pc i) →
      A c.shared = B c.shared + ∑ j, g j (c.pc j) →
      A d.shared + (B c.shared + g i (c.pc i)) = A c.shared + (B d.shared + g i (d.pc i)))
    {c : Config ι σ π} (hc : Reach P.lts ok c) :
    A c.shared = B c.shared + ∑ i, g i (c.pc i) := by
  refine hc.invariant (I := fun c => A c.shared = B c.shared + ∑ i, g i (c.pc i))
    (fun s h => hinit _ _ h) ?_
  rintro c i d hc hsum hok ⟨hs,hframe⟩
  have hmove := sum_move g hframe
  have hdiff := hstep hc hok hs hsum
  rw [hsum] at hdiff
  refine add_right_cancel (b := B c.shared + g i (c.pc i)) ?_
  calc A d.shared + (B c.shared + g i (c.pc i))
      = B c.shared + B d.shared + (∑ j, g j (c.pc j) + g i (d.pc i)) := by rw [hdiff]; abel
    _ = B c.shared + B d.shared + (∑ j, g j (d.pc j) + g i (c.pc i)) := by rw [hmove]
    _ = B d.shared + ∑ j, g j (d.pc j) + (B c.shared + g i (c.pc i)) := by abel

end Shares

end Interleave
