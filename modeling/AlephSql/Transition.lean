import Mathlib.Data.Nat.Notation
import Mathlib.Logic.Relation

/-! Labelled transition systems, the states reached by runs whose steps all meet a
condition, and the rules that carry a fact about one step over a whole run. -/
namespace Transition

/-- Initial states and labelled steps. -/
structure Lts (σ α : Type*) where
  init : σ → Prop
  step : σ → α → σ → Prop

variable {σ τ α β : Type*}

/-- The states at the end of runs whose steps all meet `ok`. -/
inductive Reach (L : Lts σ α) (ok : σ → α → σ → Prop) : σ → Prop
  | init {s : σ} (h : L.init s) : Reach L ok s
  | step {s t : σ} {a : α} (hs : Reach L ok s) (hok : ok s a t) (h : L.step s a t) :
      Reach L ok t

/-- Runs without any condition on their steps. -/
def anyStep : σ → α → σ → Prop := fun _ _ _ => True

abbrev Reachable (L : Lts σ α) : σ → Prop := Reach L anyStep

def Move (L : Lts σ α) (ok : σ → α → σ → Prop) (s t : σ) : Prop :=
  ∃ a, ok s a t ∧ L.step s a t

/-- The continuations of a state by steps meeting `ok`. -/
abbrev Continues (L : Lts σ α) (ok : σ → α → σ → Prop) : σ → σ → Prop :=
  Relation.ReflTransGen (Move L ok)

variable {L : Lts σ α} {ok ok' : σ → α → σ → Prop}

theorem Reach.mono (h : ∀ s a t, ok s a t → ok' s a t) {s : σ} (hs : Reach L ok s) :
    Reach L ok' s := by
  induction hs with
  | init h0 => exact .init h0
  | step _ hok hstep ih => exact .step ih (h _ _ _ hok) hstep

theorem Reach.reachable {s : σ} (hs : Reach L ok s) : Reachable L s :=
  hs.mono fun _ _ _ _ => trivial

theorem Continues.mono (h : ∀ s a t, ok s a t → ok' s a t) {s t : σ} (hs : Continues L ok s t) :
    Continues L ok' s t :=
  Relation.ReflTransGen.mono (fun _ _ ⟨a,hok,hstep⟩ => ⟨a,h _ _ _ hok,hstep⟩) _ _ hs

theorem Reach.continues {s t : σ} (hs : Reach L ok s) (h : Continues L ok s t) :
    Reach L ok t := by
  induction h with
  | refl => exact hs
  | tail _ hmove ih =>
    obtain ⟨a,hok,hstep⟩ := hmove
    exact .step ih hok hstep

/-- An invariant holds at the start and survives every admitted step. Earlier invariants of
the same runs are available through the reachability of the source state. -/
theorem Reach.invariant {I : σ → Prop} (hinit : ∀ s, L.init s → I s)
    (hstep : ∀ {s a t}, Reach L ok s → I s → ok s a t → L.step s a t → I t)
    {s : σ} (hs : Reach L ok s) : I s := by
  induction hs with
  | init h0 => exact hinit _ h0
  | step hs hok h ih => exact hstep hs ih hok h

theorem Continues.invariant {I : σ → Prop}
    (hstep : ∀ {s a t}, I s → ok s a t → L.step s a t → I t)
    {s t : σ} (h : Continues L ok s t) (hs : I s) : I t := by
  induction h with
  | refl => exact hs
  | tail _ hmove ih =>
    obtain ⟨a,hok,h⟩ := hmove
    exact hstep ih hok h

/-- Every step of `L` is a step of `A` between the images, or leaves the image alone. -/
structure Refines (L : Lts σ α) (ok : σ → α → σ → Prop) (A : Lts τ β) (abs : σ → τ) : Prop where
  init : ∀ s, L.init s → A.init (abs s)
  step : ∀ {s a t}, Reach L ok s → ok s a t → L.step s a t →
    abs t = abs s ∨ ∃ b, A.step (abs s) b (abs t)

/-- Refinement carries reachability to the abstract system. -/
theorem Refines.reach {A : Lts τ β} {abs : σ → τ} (h : Refines L ok A abs) {s : σ}
    (hs : Reach L ok s) : Reachable A (abs s) := by
  induction hs with
  | init h0 => exact .init (h.init _ h0)
  | step hs hok hstep ih =>
    rcases h.step hs hok hstep with he | ⟨b,hb⟩
    · rw [he]; exact ih
    · exact .step ih trivial hb

/-- Every run from `s` whose steps meet `ok` comes to `P`. Before that a step meeting `own` is
always possible, and no run goes on for ever. -/
inductive Inevitable (L : Lts σ α) (ok own : σ → α → σ → Prop) (P : σ → Prop) : σ → Prop
  | now {s : σ} (h : P s) : Inevitable L ok own P s
  | later {s : σ} (more : ∃ t, Move L own s t)
      (next : ∀ t, Move L ok s t → Inevitable L ok own P t) : Inevitable L ok own P s

/-- A measure that every admitted step lowers, in states that always allow a step. -/
theorem Inevitable.of_measure {own : σ → α → σ → Prop} {I P : σ → Prop} (μ : σ → ℕ)
    (hmore : ∀ s, I s → ¬P s → ∃ t, Move L own s t)
    (hnext : ∀ {s a t}, I s → ok s a t → L.step s a t → I t ∧ μ t < μ s)
    {s : σ} (hs : I s) : Inevitable L ok own P s := by
  induction hm : μ s using Nat.strongRecOn generalizing s with
  | _ m ih =>
    by_cases hP : P s
    · exact .now hP
    · refine .later (hmore s hs hP) fun t ⟨a,hok,hstep⟩ => ?_
      obtain ⟨ht,hlt⟩ := hnext hs hok hstep
      exact ih (μ t) (hm ▸ hlt) ht rfl

end Transition
