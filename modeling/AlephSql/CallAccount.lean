import AlephSql.PoolInvariant
import Mathlib.Algebra.Order.BigOperators.Group.Finset

/-! Accounts of what the tasks record. A log in the data is made up of the parts due to the
tasks run to their end and the shares of the calls under way; or of the parts due to the tasks
pushed and what the calls still owe. -/
namespace AlephSql
namespace SqlThread

open Transition Interleave

variable {m n : ℕ} {T B D X : Type} {C : Calls T B D} {d₀ : D}

def callAt : Point T B → Option (Task T × B)
  | .running t b => some (t,b)
  | .posting back _ => back
  | _ => none

/-- The task that a thread is about to push. -/
def pending : Point T B → Option T
  | .posting _ (.lock x) | .posting _ (.count x) | .posting _ (.push x) => some x
  | _ => none

def held (share : Task T → B → Multiset X) (p : Point T B) : Multiset X :=
  (callAt p).elim 0 fun call => share call.1 call.2

theorem held_of_idle {share : Task T → B → Multiset X} {p : Point T B} (h : current p = 0) :
    held share p = 0 := by
  cases p with
  | running t b => simp [current] at h
  | posting k q =>
    cases k with
    | none => rfl
    | some call => simp [current] at h
  | _ => rfl

def parts (f : Task T → Multiset X) (tasks : List (Task T)) : Multiset X := (tasks.map f).sum

section Parts

variable {f : Task T → Multiset X}

@[simp] theorem parts_nil : parts f [] = 0 := rfl

@[simp] theorem parts_append (l l' : List (Task T)) :
    parts f (l ++ l') = parts f l + parts f l' := by
  simp [parts]

@[simp] theorem parts_singleton (t : Task T) : parts f [t] = f t := by
  simp [parts]

theorem parts_filterMap (g : Task T → Option X) (l : List (Task T)) :
    parts (fun t => ((g t).toList : Multiset X)) l = (l.filterMap g : Multiset X) := by
  induction l with
  | nil => rfl
  | cons t l ih =>
    have hcons : parts (fun t => ((g t).toList : Multiset X)) (t :: l) =
        (g t).toList + parts (fun t => ((g t).toList : Multiset X)) l := by simp [parts]
    rw [hcons,ih]
    cases hg : g t with
    | none => simp [hg]
    | some x => simp [hg]

end Parts

section Account

variable {ok : Guard (Thread m n) (Shared m n T D) (Point T B)} {c : State m n T B D}
  (proper : Shared m n T D → Task T → B → Prop) (log : D → Multiset X)
  (share : Task T → B → Multiset X)

/-- Where the calls of all reachable states are proper, a log is the parts of the finished
tasks and the shares of the calls, if one action of a call says so. -/
theorem account_finished (f : Task T → Multiset X)
    (hproper : ∀ {c : State m n T B D}, Reach (pool C m n d₀).lts ok c →
      ∀ i t b, callAt (c.pc i) = some (t,b) → proper c.shared t b)
    (hinit : log d₀ = 0) (hcall : ∀ t, share t (C.call t) = 0)
    (hact : ∀ {s t b b' d'}, proper s t b → C.act b s.data b' d' →
      log d' + share t b = log s.data + share t b')
    (hpost : ∀ {s t b x b'}, proper s t b → C.post b x b' → share t b' = share t b)
    (hreturned : ∀ {s t b}, proper s t b → C.returned b → share t b = f t)
    (hc : Reach (pool C m n d₀).lts ok c) :
    log c.shared.data = parts f c.shared.finished + ∑ i, held share (c.pc i) := by
  refine share_invariant (A := fun s => log s.data) (B := fun s => parts f s.finished)
    (g := fun _ => held share) ?_ ?_ hc
  · rintro s pc ⟨rfl,rfl⟩
    have hnone : ∑ i : Thread m n, held share (startPoint i : Point T B) = 0 :=
      Finset.sum_eq_zero fun i _ => by cases i <;> rfl
    simp [startShared,hinit,hnone]
  · intro c d i hc _ h _
    have hp := hproper hc i
    generalize c.shared = s at h hp
    generalize d.shared = s' at h
    generalize c.pc i = p at h hp
    generalize d.pc i = p' at h
    cases h with
    | act w s t b b' d' h =>
      have hstep := hact (hp t b rfl) h
      simp only [held,callAt,Option.elim]
      rw [add_left_comm,hstep,add_left_comm]
    | taskPosts w s t b x b' h =>
      have hstep := hpost (hp t b rfl) h
      simp only [held,callAt,Option.elim]
      rw [hstep]
    | taskReturns w s t b h =>
      have hstep := hreturned (hp t b rfl) h
      simp only [held,callAt,Option.elim,add_zero,parts_append,parts_singleton]
      rw [hstep]
    | taken w s t =>
      have hstep := hcall t
      simp [held,callAt,hstep]
    | _ => rfl

theorem account_le (f : Task T → Multiset X)
    (haccount : log c.shared.data = parts f c.shared.finished + ∑ i, held share (c.pc i))
    (hproper : ∀ i t b, callAt (c.pc i) = some (t,b) → proper c.shared t b)
    (hle : ∀ {s t b}, proper s t b → share t b ≤ f t)
    (hc : Reach (pool C m n d₀).lts ok c) :
    log c.shared.data ≤ parts f c.shared.started := by
  have hcurrent : ∀ i, held share (c.pc i) ≤ ((current (c.pc i)).map f).sum := by
    intro i
    have hi := hproper i
    generalize c.pc i = p at hi
    cases p with
    | running t b => simpa [held,callAt,current] using hle (hi t b rfl)
    | posting k q =>
      cases k with
      | none => exact Multiset.zero_le _
      | some call => simpa [held,callAt,current] using hle (hi _ _ rfl)
    | _ => exact Multiset.zero_le _
  have hsplit := (jobs_accounted hc).split
  have hstarted : parts f c.shared.started =
      (((jobs c).running + (jobs c).completed).map f).sum := by
    rw [← hsplit]
    simp [parts,jobs]
  rw [haccount,hstarted,Multiset.map_add,Multiset.sum_add,add_comm]
  refine add_le_add ?_ (le_of_eq ?_)
  · have hmap : ((∑ i, current (c.pc i)).map f).sum = ∑ i, ((current (c.pc i)).map f).sum :=
      map_sum (Multiset.sumAddMonoidHom.comp (Multiset.mapAddMonoidHom f)) _ _
    rw [jobs,hmap]
    exact Finset.sum_le_sum fun i _ => hcurrent i
  · simp [parts,jobs]

/-- What a thread is about to push, in account. -/
def due (h : T → Multiset X) (p : Point T B) : Multiset X := (pending p).elim 0 h

theorem due_of_returned {h : T → Multiset X} {p : Point T B} (hp : ∀ k q, p ≠ .posting k q) :
    due h p = 0 := by
  cases p with
  | posting k q => exact absurd rfl (hp k q)
  | _ => rfl

/-- Where the calls of all reachable states are proper, a log is the parts of the pushed tasks,
what is about to be pushed, and what the calls owe. -/
theorem account_pushed (part : T → Multiset X)
    (hproper : ∀ {c : State m n T B D}, Reach (pool C m n d₀).lts ok c →
      ∀ i t b, callAt (c.pc i) = some (t,b) → proper c.shared t b)
    (hinit : log d₀ = 0) (hcall : ∀ t, share t (C.call t) = 0)
    (hact : ∀ {s t b b' d'}, proper s t b → C.act b s.data b' d' →
      log d' + share t b = log s.data + share t b')
    (hpost : ∀ {s t b x b'}, proper s t b → C.post b x b' → share t b = share t b' + part x)
    (hreturned : ∀ {s t b}, proper s t b → C.returned b → share t b = 0)
    (houtside : ∀ {c d : State m n T B D} {i j x}, ok c i d → i = .poster j →
      d.pc i = .posting none (.lock x) → part x = 0)
    (hc : Reach (pool C m n d₀).lts ok c) :
    log c.shared.data = parts (fun t => part t.work) c.shared.pushed +
      ∑ i, (held share (c.pc i) + due part (c.pc i)) := by
  refine share_invariant (A := fun s => log s.data)
    (B := fun s => parts (fun t => part t.work) s.pushed)
    (g := fun _ p => held share p + due part p) ?_ ?_ hc
  · rintro s pc ⟨rfl,rfl⟩
    have hnone : ∑ i : Thread m n, (held share (startPoint i : Point T B) +
        due part (startPoint i : Point T B)) = 0 :=
      Finset.sum_eq_zero fun i _ => by cases i <;> rfl
    simp [startShared,hinit,hnone]
  · intro c d i hc hok h _
    have hp := hproper hc i
    have hout : ∀ j x, i = .poster j → d.pc i = .posting none (.lock x) → part x = 0 :=
      fun j x => houtside hok
    generalize c.shared = s at h hp
    generalize d.shared = s' at h
    generalize c.pc i = p at h hp
    generalize d.pc i = p' at h hout
    cases h with
    | call i s x =>
      have hnone := hout i x rfl rfl
      simp [held,callAt,due,pending,hnone]
    | act w s t b b' d' h =>
      have hstep := hact (hp t b rfl) h
      simp only [held,callAt,due,pending,Option.elim,add_zero]
      rw [add_left_comm,hstep,add_left_comm]
    | taskPosts w s t b x b' h =>
      have hstep := hpost (hp t b rfl) h
      simp only [held,callAt,due,pending,Option.elim,add_zero]
      rw [hstep]
    | taskReturns w s t b h =>
      have hstep := hreturned (hp t b rfl) h
      simp [held,callAt,due,pending,hstep]
    | taken w s t =>
      have hstep := hcall t
      simp [held,callAt,due,pending,hstep]
    | postPush i s k x =>
      simp only [held,callAt,due,pending,Option.elim,add_zero,parts_append,parts_singleton]
      rw [add_assoc,add_comm (part x)]
    | _ => rfl

end Account

end SqlThread
end AlephSql
