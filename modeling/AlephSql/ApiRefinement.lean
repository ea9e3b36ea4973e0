import AlephSql.Completion
import AlephSql.Service

/-! The asynchronous API as a service: the pool with its queue, workers and mutexes against a book
of what was submitted, performed and reported. -/
namespace AlephSql
namespace AsyncPool

open Transition Interleave Sqlite Database Delivery SqlThread
open Service (Terms Book service nodup_snoc)

variable {O K : Type}

/-- An operation is known by its ticket; its callback is called with its token and its outcome. -/
def terms : Terms (Operation O K) Outcome (Completion K) ℕ where
  key := Operation.ticket
  about := Completion.op
  tells x o k := k.token = x.token ∧ Carries o k.args

/-- What a client of the pool sees. -/
def view {m n : ℕ} (c : AsyncState m n O K) : Book (Operation O K) Outcome (Completion K) where
  submitted := operations c.shared.pushed
  performed := c.shared.data.performed
  reported := c.shared.data.invoked

variable [DecidableEq O] {m n : ℕ} {E : Engine} {R : Residue} {behaves : Behaviour O}
  {objects : O → Object} {calls : History}

/-- What one action does to what a client sees. -/
inductive Seen (s s' : Shared m n (Work O K) (Data O K)) : Prop
  | nothing (pushed : s'.pushed = s.pushed) (performed : s'.data.performed = s.data.performed)
      (invoked : s'.data.invoked = s.data.invoked)
  | push (x : Work O K) (pushed : s'.pushed = s.pushed ++ [⟨s.pushed.length,x⟩])
      (performed : s'.data.performed = s.data.performed)
      (invoked : s'.data.invoked = s.data.invoked)
  | perform (x : Operation O K) (o : Outcome) (pushed : s'.pushed = s.pushed)
      (performed : s'.data.performed = s.data.performed ++ [(x,o)])
      (invoked : s'.data.invoked = s.data.invoked)
  | invoke (k : Completion K) (pushed : s'.pushed = s.pushed)
      (performed : s'.data.performed = s.data.performed)
      (invoked : s'.data.invoked = s.data.invoked ++ [k])

theorem step_seen {i : Thread m n} {s s' : Shared m n (Work O K) (Data O K)}
    {p p' : Point (Work O K) (Body O K)} (h : Step (asyncCalls E R behaves) i s p s' p') :
    Seen s s' := by
  cases h with
  | postPush i s k x => exact .push x rfl rfl rfl
  | act w s t b b' d' h =>
    cases h with
    | callReturns x o d => exact .perform x o rfl rfl rfl
    | invoke k d => exact .invoke k rfl rfl rfl
    | _ => exact .nothing rfl rfl rfl
  | _ => exact .nothing rfl rfl rfl

section Steps

variable {c d : AsyncState m n O K}

theorem operations_nodup (hc : Reach (asyncPool E R behaves m n objects calls).lts Submits c) :
    ((operations c.shared.pushed).map Operation.ticket).Nodup := by
  refine List.Nodup.sublist (operations_tickets _) ?_
  rw [pushed_tickets hc]
  exact List.nodup_range

theorem view_push (hd : Reach (asyncPool E R behaves m n objects calls).lts Submits d)
    {x : Work O K} (hpushed : d.shared.pushed = c.shared.pushed ++ [⟨c.shared.pushed.length,x⟩])
    (hperformed : d.shared.data.performed = c.shared.data.performed)
    (hinvoked : d.shared.data.invoked = c.shared.data.invoked) :
    view d = view c ∨ ∃ e, (service terms).step (view c) e (view d) := by
  cases x with
  | callback k => exact .inl (by simp [view,hpushed,hperformed,hinvoked,operationOf])
  | operation s =>
    have hnodup := operations_nodup hd
    rw [hpushed,operations_append,List.map_append] at hnodup
    have hview : view d = { view c with
        submitted := (view c).submitted ++ [⟨s,c.shared.pushed.length⟩] } := by
      simp [view,hpushed,hperformed,hinvoked,operationOf]
    rw [hview]
    exact .inr ⟨_,Service.Step.submit _ _ (nodup_snoc.mp hnodup).2⟩

theorem view_perform (hd : Reach (asyncPool E R behaves m n objects calls).lts Submits d)
    {x : Operation O K} {o : Outcome} (hpushed : d.shared.pushed = c.shared.pushed)
    (hperformed : d.shared.data.performed = c.shared.data.performed ++ [(x,o)])
    (hinvoked : d.shared.data.invoked = c.shared.data.invoked) :
    ∃ e, (service terms).step (view c) e (view d) := by
  have hasked : x ∈ operations c.shared.pushed := by
    rw [← hpushed]
    exact submitted_of_performed (fun h => h) hd (by rw [hperformed]; simp : (x,o) ∈ _)
  have hnodup := performedTickets_nodup (fun h => h) hd
  rw [hperformed,List.map_append] at hnodup
  have hview : view d = { view c with performed := (view c).performed ++ [(x,o)] } := by
    simp [view,hpushed,hperformed,hinvoked]
  rw [hview]
  exact ⟨_,Service.Step.perform _ x o hasked (nodup_snoc.mp hnodup).2⟩

theorem view_invoke (hd : Reach (asyncPool E R behaves m n objects calls).lts Submits d)
    {k : Completion K} (hpushed : d.shared.pushed = c.shared.pushed)
    (hperformed : d.shared.data.performed = c.shared.data.performed)
    (hinvoked : d.shared.data.invoked = c.shared.data.invoked ++ [k]) :
    ∃ e, (service terms).step (view c) e (view d) := by
  have hstarted := started_of_invoked (fun h => h) hd (by rw [hinvoked]; simp : k ∈ _)
  have hposted := ((started_le_pushed hd).sublist.filterMap completionOf).subset hstarted
  obtain ⟨x,o,hmem,hop,htoken,hcarries⟩ := truthful_of_posted (fun h => h) hd hposted
  rw [hperformed] at hmem
  have honce : (d.shared.data.invoked.map Completion.op).Nodup := by
    refine List.nodup_iff_count_le_one.mpr fun op => (timesInvoked_le (fun h => h) hd op).trans ?_
    exact List.nodup_iff_count_le_one.mp (performedTickets_nodup (fun h => h) hd) op
  rw [hinvoked,List.map_append] at honce
  have hview : view d = { view c with reported := (view c).reported ++ [k] } := by
    simp [view,hpushed,hperformed,hinvoked]
  rw [hview]
  exact ⟨_,Service.Step.report _ x o k hmem hop ⟨htoken,hcarries⟩ (nodup_snoc.mp honce).2⟩

theorem view_refines : Refines (asyncPool E R behaves m n objects calls).lts
    (Submits (O := O) (K := K) (m := m) (n := n)) (service terms) view where
  init c := by
    rintro ⟨hs,-⟩
    simp [service,view,hs,startShared,fresh,operations]
  step {c i d} hc hok h := by
    have hd := hc.step hok h
    rcases step_seen h.1 with ⟨hp,hf,hi⟩ | ⟨x,hp,hf,hi⟩ | ⟨x,o,hp,hf,hi⟩ | ⟨k,hp,hf,hi⟩
    · exact .inl (by simp [view,hp,hf,hi])
    · exact view_push hd hp hf hi
    · exact .inr (view_perform hd hp hf hi)
    · exact .inr (view_invoke hd hp hf hi)

end Steps

theorem async_api_refines_service {O K : Type} [DecidableEq O] (E : Engine) (R : Residue)
    (behaves : Behaviour O) (m n : ℕ) (objects : O → Object) (calls : History) :
    Refines (asyncPool E R behaves m n objects calls).lts
        (Submits (O := O) (K := K) (m := m) (n := n)) (service terms) view ∧
      ∀ c : AsyncState m n O K, Reach (asyncPool E R behaves m n objects calls).lts Submits c →
        Service.Honest terms (view c) :=
  ⟨view_refines,fun _ hc => Service.honest (view_refines.reach hc)⟩

theorem async_api_refines_service_open : ∃ c : AsyncState 1 1 Unit Unit,
    (view c).submitted = [openOnce] ∧ (∃ o, (openOnce,o) ∈ (view c).performed) ∧
      (∃ k ∈ (view c).reported, k.op = openOnce.ticket) ∧ Service.Honest terms (view c) := by
  obtain ⟨c,hc,hexit,hpushed⟩ := openOnce_drained
  have hsubmitted : operations c.shared.pushed = [openOnce] := by
    simp [hpushed,operations,operationOf,taskOf]
  obtain ⟨-,-,o,k,hperformed,hinvoked,hop,-⟩ :=
    (completed_of_exited (by decide) hc hexit).2 openOnce (by simp [hsubmitted])
  refine ⟨c,hsubmitted,⟨o,hperformed⟩,⟨k,hinvoked,hop⟩,?_⟩
  exact (async_api_refines_service sampleEngine ⟨id,id⟩ (fun _ _ => False) 1 1 (fun _ => {})
    [.config]).2 c (hc.mono fun _ _ _ h => h.2)

end AsyncPool
end AlephSql
