import AlephSql.AsyncPool
import AlephSql.SharedOwnership

/-! How long a database object lives. The task of an operation holds `self` from
`shared_from_this` and the callback; the callback's task holds what the callback has captured.
References move with the functions through the queue and go when a worker's `_task_func` does. -/
namespace AlephSql
namespace ObjectLifetime

open Transition Interleave Sqlite Database CallSteps Delivery SqlThread AsyncPool SharedOwnership

variable {m n : ℕ} {O K : Type}

/-- The pool with the counters of the objects and the references held outside of it. -/
structure Owned (m n : ℕ) (O K : Type) where
  pool : Shared m n (Work O K) (Data O K)
  counters : Counters O
  outside : Multiset O

section References

variable (captures : K → List O)

/-- The references in the captures of a function in `M_tasks`. -/
def references : Work O K → List O
  | .operation s => s.self :: captures s.token
  | .callback k => captures k.token

/-- The references in a called function. The token leaves an operation when it is posted. -/
def bodyReferences : Body O K → List O
  | .entered x | .calling x _ | .returned x _ | .openFailed x _ => x.self :: captures x.token
  | .ended x => [x.self]
  | .deliver k | .inside k => captures k.token

/-- The references in a `new_task` that has not been pushed yet. -/
def unpushed : PostPoint (Work O K) → List O
  | .lock x | .count x | .push x => references captures x
  | _ => []

def queued (tasks : List (SqlThread.Task (Work O K))) : Multiset O :=
  (tasks.flatMap fun t => references captures t.work : List O)

end References

/-- In the code of the library's user: a thread outside the pool, or a callback. -/
@[simp] def InUserCode : Point (Work O K) (Body O K) → Prop
  | .idle | .running _ (.inside _) => True
  | _ => False

@[simp] def Plain : Point (Work O K) (Body O K) → Point (Work O K) (Body O K) → Prop
  | .idle, _ | .posting _ (.push _), _ | .unlockCount, _ => False
  | .running _ (.inside _), .posting _ _ => False
  | .afterWait, .taken _ => False
  | _, _ => True

variable [DecidableEq O]

/-- A thread carries the references in its own functions. User code may make objects, copy
references to live objects and drop its own, and submits operations on live objects only. -/
inductive OwnedStep (captures : K → List O) (E : Engine) (R : Residue) (behaves : Behaviour O) :
    Thread m n → Owned m n O K → Point (Work O K) (Body O K) × List O →
      Owned m n O K → Point (Work O K) (Body O K) × List O → Prop
  | create (i s p r o) (user : InUserCode p) (new : o ∉ s.counters.created) :
      OwnedStep captures E R behaves i s (p,r)
        { s with counters := create s.counters o, outside := o ::ₘ s.outside } (p,r)
  | copy (i s p r o) (user : InUserCode p) (alive : 0 < s.counters.count o) :
      OwnedStep captures E R behaves i s (p,r)
        { s with counters := retain s.counters o, outside := o ::ₘ s.outside } (p,r)
  | drop (i s p r o) (user : InUserCode p) (held : o ∈ s.outside) :
      OwnedStep captures E R behaves i s (p,r)
        { s with counters := release s.counters o, outside := s.outside.erase o } (p,r)
  | submit (i s p r s' k y) (user : InUserCode p)
      (h : Step (asyncCalls E R behaves) i s.pool p s' (.posting k (.lock (.operation y))))
      (alive : ∀ o ∈ references captures (.operation y), 0 < s.counters.count o) :
      OwnedStep captures E R behaves i s (p,r)
        { s with
          pool := s'
          counters := retainAll s.counters (references captures (.operation y)) }
        (.posting k (.lock (.operation y)),references captures (.operation y) ++ r)
  | push (i s k x r s' p')
      (h : Step (asyncCalls E R behaves) i s.pool (.posting k (.push x)) s' p') :
      OwnedStep captures E R behaves i s (.posting k (.push x),r) { s with pool := s' }
        (p',r.diff (references captures x))
  | take (i s r s' t) (h : Step (asyncCalls E R behaves) i s.pool .afterWait s' (.taken t)) :
      OwnedStep captures E R behaves i s (.afterWait,r) { s with pool := s' }
        (.taken t,references captures t.work ++ r)
  -- `_task_func` goes at the end of a turn of the worker loop
  | destroy (i s r s' p') (h : Step (asyncCalls E R behaves) i s.pool .unlockCount s' p') :
      OwnedStep captures E R behaves i s (.unlockCount,r)
        { s with pool := s', counters := releaseAll s.counters r } (p',[])
  | other (i s p r s' p') (h : Step (asyncCalls E R behaves) i s.pool p s' p')
      (plain : Plain p p') :
      OwnedStep captures E R behaves i s (p,r) { s with pool := s' } (p',r)

/-- The pool of the asynchronous API with the references in it. -/
def ownedPool (captures : K → List O) (E : Engine) (R : Residue) (behaves : Behaviour O)
    (m n : ℕ) (objects : O → Object) (calls : History) :
    Threads (Thread m n) (Owned m n O K) (Point (Work O K) (Body O K) × List O) where
  init s pc := s = ⟨startShared (fresh objects calls),.empty,0⟩ ∧ pc = fun i => (startPoint i,[])
  step := OwnedStep captures E R behaves

abbrev OwnedState (m n : ℕ) (O K : Type) :=
  Config (Thread m n) (Owned m n O K) (Point (Work O K) (Body O K) × List O)

def poolOf (c : OwnedState m n O K) : AsyncState m n O K :=
  ⟨c.shared.pool,fun i => (c.pc i).1⟩

variable {captures : K → List O} {E : Engine} {R : Residue} {behaves : Behaviour O}
  {objects : O → Object} {calls : History}

section Steps

variable {i : Thread m n} {s s' : Owned m n O K}
  {q q' : Point (Work O K) (Body O K) × List O}

theorem ownedStep_pool (h : OwnedStep captures E R behaves i s q s' q') :
    (s'.pool = s.pool ∧ q'.1 = q.1) ∨
      Step (asyncCalls E R behaves) i s.pool q.1 s'.pool q'.1 := by
  cases h with
  | create | copy | drop => exact .inl ⟨rfl,rfl⟩
  | submit p r s' k y user h alive => exact .inr h
  | push k x r s' p' h => exact .inr h
  | take r s' t h => exact .inr h
  | destroy r s' p' h => exact .inr h
  | other p r s' p' h plain => exact .inr h

/-- The references that a thread has where it stands. In the bookkeeping after a task they are
those that the task's function has left. -/
def Expected (captures : K → List O) : Point (Work O K) (Body O K) × List O → Prop
  | (.posting none p,r) => r.Perm (unpushed captures p)
  | (.posting (some (_,b)) p,r) => r.Perm (unpushed captures p ++ bodyReferences captures b)
  | (.taken t,r) => r.Perm (references captures t.work)
  | (.running _ b,r) => r.Perm (bodyReferences captures b)
  | (.lockCount,_) | (.testPositive,_) | (.decrement,_) | (.testZero,_) | (.testEmpty,_)
  | (.notifyIdle,_) | (.unlockCount,_) => True
  | (_,r) => r = []

omit [DecidableEq O] in
theorem bodyReferences_called (t : SqlThread.Task (Work O K)) :
    bodyReferences captures (called t) = references captures t.work := by
  obtain ⟨i,work⟩ := t
  cases work <;> rfl

theorem bodyReferences_act {b b' : Body O K} {d d' : Data O K} (h : Act E behaves b d b' d') :
    bodyReferences captures b' = bodyReferences captures b := by
  cases h <;> rfl

omit [DecidableEq O] in
theorem bodyReferences_posts {b b' : Body O K} {x : Work O K} (h : Posts R b x b')
    (hb : ∀ k, b ≠ .inside k) :
    (bodyReferences captures b).Perm (references captures x ++ bodyReferences captures b') := by
  cases h with
  | submit k s => exact absurd rfl (hb k)
  | _ => exact (List.perm_append_singleton _ _).symm

theorem diff_perm {r x rest : List O} (h : r.Perm (x ++ rest)) : (r.diff x).Perm rest := by
  rw [← Multiset.coe_eq_coe,← Multiset.coe_sub,Multiset.coe_eq_coe.mpr h,← Multiset.coe_add,
    add_tsub_cancel_left]

theorem step_expected (h : OwnedStep captures E R behaves i s q s' q')
    (hq : Expected captures q) : Expected captures q' := by
  cases h with
  | create | copy | drop => exact hq
  | submit p r s' k y user h alive =>
    cases h with
    | call i s x =>
      have hr : r = [] := hq
      simp [hr,Expected,unpushed]
    | taskPosts w s t b x b' h =>
      cases h with
      | submit k s => exact List.Perm.append_left _ hq
  | push k x r s' p' h =>
    cases h with
    | postPush i s k x =>
      cases k with
      | none =>
        have hr : r.Perm (references captures x ++ []) := by
          rw [List.append_nil]
          exact hq
        exact diff_perm hr
      | some k => exact diff_perm hq
  | take r s' t h =>
    have hr : r = [] := hq
    simp [hr,Expected]
  | destroy r s' p' h =>
    cases h
    rfl
  | other p r s' p' h plain =>
    cases h with
    | act w s t b b' d' h => exact hq.trans (by rw [bodyReferences_act h])
    | taken w s t => exact hq.trans (by rw [← bodyReferences_called]; rfl)
    | taskPosts w s t b x b' h =>
      refine hq.trans (bodyReferences_posts h fun k hk => ?_)
      subst hk
      exact plain
    | postLock i s k | postCount i s k | postUnlock i s k | postNotifyNobody i s k
    | postNotifyOne i s k => cases k <;> exact hq
    | returnToPoster i s => exact List.perm_nil.mp hq
    | call | postPush | take | unlockCount => exact plain.elim
    | taskReturns => trivial
    | _ => exact hq

theorem step_user {s s' : Shared m n (Work O K) (Data O K)} {p p' : Point (Work O K) (Body O K)}
    (h : Step (asyncCalls E R behaves) i s p s' p') (user : InUserCode p) : s'.tasks = s.tasks := by
  cases h <;> first | rfl | exact user.elim

theorem step_plain {s s' : Shared m n (Work O K) (Data O K)} {p p' : Point (Work O K) (Body O K)}
    (h : Step (asyncCalls E R behaves) i s p s' p') (plain : Plain p p') : s'.tasks = s.tasks := by
  cases h <;> first | rfl | exact plain.elim

omit [DecidableEq O] in
theorem queued_append (tasks : List (SqlThread.Task (Work O K))) (t : SqlThread.Task (Work O K)) :
    queued captures (tasks ++ [t]) = queued captures tasks+references captures t.work := by
  simp [queued,← Multiset.coe_add]

omit [DecidableEq O] in
theorem queued_cons (t : SqlThread.Task (Work O K)) (tasks : List (SqlThread.Task (Work O K))) :
    queued captures (t :: tasks) = references captures t.work+queued captures tasks := by
  simp [queued,← Multiset.coe_add]

omit [DecidableEq O] in
theorem unpushed_le {k : Option (SqlThread.Task (Work O K) × Body O K)} {x : Work O K} {r : List O}
    (hq : Expected captures (.posting k (.push x),r)) :
    (references captures x : Multiset O) ≤ r := by
  cases k with
  | none =>
    have hr : r.Perm (references captures x) := hq
    exact (Multiset.coe_eq_coe.mpr hr).ge
  | some k =>
    have hr : r.Perm (references captures x ++ bodyReferences captures k.2) := hq
    rw [Multiset.coe_eq_coe.mpr hr,← Multiset.coe_add]
    exact Multiset.le_add_right _ _

/-- The counters follow the references, those of the mover and those of everybody else. -/
theorem step_counted (h : OwnedStep captures E R behaves i s q s' q') (hq : Expected captures q)
    {rest : Multiset O}
    (hs : Counted s.counters (s.outside+queued captures s.pool.tasks+(q.2+rest))) :
    Counted s'.counters (s'.outside+queued captures s'.pool.tasks+(q'.2+rest)) := by
  cases h with
  | create p r o user new =>
    simpa only [Multiset.cons_add] using hs.create new
  | copy p r o user alive =>
    simpa only [Multiset.cons_add] using hs.retain (hs.mem_of_count alive)
  | drop p r o user held =>
    rw [← Multiset.cons_erase held,Multiset.cons_add,Multiset.cons_add] at hs
    exact hs.release
  | submit p r s' k y user h alive =>
    have hall := hs.retainAll fun o ho => hs.mem_of_count (alive o ho)
    have hsame : s.outside+queued captures s'.tasks+
        (((references captures (.operation y) ++ r : List O) : Multiset O)+rest) =
        references captures (.operation y)+
          (s.outside+queued captures s.pool.tasks+((r : Multiset O)+rest)) := by
      rw [step_user h user,← Multiset.coe_add]
      abel
    exact hsame ▸ hall
  | push k x r s' p' h =>
    cases h with
    | postPush i s k x =>
      have hcarried : (references captures x : Multiset O)+
          (r.diff (references captures x) : List O) = r := by
        rw [← Multiset.coe_sub]
        exact add_tsub_cancel_of_le (unpushed_le hq)
      refine cast (congrArg _ ?_) hs
      rw [queued_append,← hcarried]
      abel
  | take r s' t h =>
    cases h with
    | take w s t rest' front =>
      refine cast (congrArg _ ?_) hs
      rw [front,queued_cons,← Multiset.coe_add]
      abel
  | destroy r s' p' h =>
    cases h with
    | unlockCount w =>
      refine Counted.releaseAll (cast (congrArg _ ?_) hs)
      rw [Multiset.coe_nil]
      abel
  | other p r s' p' h plain =>
    simpa only [step_plain h plain] using hs

end Steps

/-- The references are ghost: a run with them is a run of the pool. -/
theorem owned_refines :
    Refines (ownedPool captures E R behaves m n objects calls).lts anyStep
      (asyncPool E R behaves m n objects calls).lts poolOf where
  init c := by
    rintro ⟨hs,hp⟩
    exact ⟨by simp [poolOf,hs],by simp [poolOf,hp]⟩
  step {c i d} _ _ h := by
    obtain ⟨hstep,hframe⟩ := h
    have hothers : ∀ j, j ≠ i → (poolOf d).pc j = (poolOf c).pc j := fun j hj =>
      congrArg Prod.fst (hframe j hj)
    rcases ownedStep_pool hstep with ⟨hpool,hpc⟩ | hpool
    · left
      have hsame : (poolOf d).pc = (poolOf c).pc := by
        funext j
        by_cases hj : j = i
        · exact hj ▸ hpc
        · exact hothers j hj
      simp only [poolOf] at hsame ⊢
      rw [hpool,hsame]
    · exact .inr ⟨i,hpool,hothers⟩

section Reachable

variable {c : OwnedState m n O K}

theorem expected (hc : Reachable (ownedPool captures E R behaves m n objects calls).lts c)
    (i : Thread m n) : Expected captures (c.pc i) := by
  refine local_invariant (Q := fun _ _ q => Expected captures q) ?_ ?_ ?_ hc i
  · rintro s pc ⟨rfl,rfl⟩ i
    cases i <;> rfl
  · intro c d i _ _ h hq
    exact step_expected h (hq i)
  · intro c d i j _ _ _ _ hq
    exact hq j

def carried (c : OwnedState m n O K) : Multiset O := ∑ i, ((c.pc i).2 : Multiset O)

omit [DecidableEq O] in
theorem carried_eq (c : OwnedState m n O K) (i : Thread m n) :
    carried c = (c.pc i).2+∑ j ∈ Finset.univ.erase i, ((c.pc j).2 : Multiset O) :=
  (Finset.add_sum_erase _ _ (Finset.mem_univ i)).symm

theorem counted (hc : Reachable (ownedPool captures E R behaves m n objects calls).lts c) :
    Counted c.shared.counters
      (c.shared.outside+queued captures c.shared.pool.tasks+carried c) := by
  refine hc.invariant (I := fun c => Counted c.shared.counters
    (c.shared.outside+queued captures c.shared.pool.tasks+carried c)) ?_ ?_
  · rintro c ⟨hs,hp⟩
    have hnone : carried c = 0 := by simp [carried,hp]
    simpa [hs,hnone,queued,startShared] using counted_empty
  · rintro c i d hc hcounted - ⟨hstep,hframe⟩
    have hrest : ∑ j ∈ Finset.univ.erase i, ((d.pc j).2 : Multiset O) =
        ∑ j ∈ Finset.univ.erase i, ((c.pc j).2 : Multiset O) :=
      Finset.sum_congr rfl fun j hj => by rw [hframe j (Finset.ne_of_mem_erase hj)]
    rw [carried_eq c i] at hcounted
    rw [carried_eq d i,hrest]
    exact step_counted hstep (expected hc i) hcounted

theorem pc_expected (hc : Reachable (ownedPool captures E R behaves m n objects calls).lts c)
    {i : Thread m n} {p : Point (Work O K) (Body O K)} (hp : (c.pc i).1 = p) :
    Expected captures (p,(c.pc i).2) := hp ▸ expected hc i

theorem carried_of_exited (hc : Reachable (ownedPool captures E R behaves m n objects calls).lts c)
    (hposters : ∀ j, (c.pc (.poster j)).1 = .idle)
    (hworkers : ∀ w, (c.pc (.worker w)).1 = .exited) : carried c = 0 := by
  refine Finset.sum_eq_zero fun i _ => ?_
  have hnone : (c.pc i).2 = [] := by
    cases i with
    | poster j => exact pc_expected hc (hposters j)
    | worker w => exact pc_expected hc (hworkers w)
    | destroyer =>
      have hbelongs := belongs_pc (owned_refines.reach hc) .destroyer
      have hq := expected hc .destroyer
      simp only [poolOf] at hbelongs
      generalize c.pc .destroyer = q at hbelongs hq
      obtain ⟨p,r⟩ := q
      cases p <;> first | exact hq | simp at hbelongs
  rw [hnone]
  rfl

end Reachable

/-- The object has a reference and has not been destroyed. -/
def Alive (c : OwnedState m n O K) (o : O) : Prop :=
  0 < c.shared.counters.count o ∧ o ∉ c.shared.counters.destroyed

/-- No function of the pool outlives an object that it refers to, no object is destroyed twice,
and when nobody has a reference any more every object is gone. -/
structure LifetimeSafe (captures : K → List O) (c : OwnedState m n O K) : Prop where
  taken : ∀ i t, (c.pc i).1 = .taken t → ∀ o ∈ references captures t.work, Alive c o
  running : ∀ i t b, (c.pc i).1 = .running t b → ∀ o ∈ bodyReferences captures b, Alive c o
  posting : ∀ i k p, (c.pc i).1 = .posting k p → ∀ o ∈ unpushed captures p, Alive c o
  caller : ∀ i t b p, (c.pc i).1 = .posting (some (t,b)) p →
    ∀ o ∈ bodyReferences captures b, Alive c o
  queued : ∀ t ∈ c.shared.pool.tasks, ∀ o ∈ references captures t.work, Alive c o
  once : c.shared.counters.destroyed.Nodup
  last : (∀ j, (c.pc (.poster j)).1 = .idle) → (∀ w, (c.pc (.worker w)).1 = .exited) →
    c.shared.pool.tasks = [] → c.shared.outside = 0 →
      ∀ o ∈ c.shared.counters.created, c.shared.counters.destroyed.count o = 1

theorem objects_outlive_operations (captures : K → List O) (E : Engine) (R : Residue)
    (behaves : Behaviour O) (m n : ℕ) (objects : O → Object) (calls : History) :
    Refines (ownedPool captures E R behaves m n objects calls).lts anyStep
      (asyncPool E R behaves m n objects calls).lts poolOf ∧
    ∀ c : OwnedState m n O K,
      Reachable (ownedPool captures E R behaves m n objects calls).lts c →
        LifetimeSafe captures c := by
  refine ⟨owned_refines,fun c hc => ?_⟩
  have hcounted := counted hc
  have hthread : ∀ i, ∀ o ∈ (c.pc i).2, Alive c o := fun i o ho => by
    refine hcounted.alive (Multiset.mem_add.mpr (.inr ?_))
    rw [carried_eq c i]
    exact Multiset.mem_add.mpr (.inl ho)
  refine ⟨fun i t hp o ho => ?_,fun i t b hp o ho => ?_,fun i k p hp o ho => ?_,
    fun i t b p hp o ho => ?_,fun t ht o ho => ?_,hcounted.once,
    fun hposters hworkers hempty hout o ho => ?_⟩
  · have hr : (c.pc i).2.Perm (references captures t.work) := pc_expected hc hp
    exact hthread i o (hr.mem_iff.mpr ho)
  · have hr : (c.pc i).2.Perm (bodyReferences captures b) := pc_expected hc hp
    exact hthread i o (hr.mem_iff.mpr ho)
  · cases k with
    | none =>
      have hr : (c.pc i).2.Perm (unpushed captures p) := pc_expected hc hp
      exact hthread i o (hr.mem_iff.mpr ho)
    | some call =>
      have hr : (c.pc i).2.Perm (unpushed captures p ++ bodyReferences captures call.2) :=
        pc_expected hc hp
      exact hthread i o (hr.mem_iff.mpr (List.mem_append_left _ ho))
  · have hr : (c.pc i).2.Perm (unpushed captures p ++ bodyReferences captures b) :=
      pc_expected hc hp
    exact hthread i o (hr.mem_iff.mpr (List.mem_append_right _ ho))
  · refine hcounted.alive (Multiset.mem_add.mpr (.inl (Multiset.mem_add.mpr (.inr ?_))))
    exact Multiset.mem_coe.mpr (List.mem_flatMap.mpr ⟨t,ht,ho⟩)
  · have hnone := carried_of_exited hc hposters hworkers
    rw [hout,hempty,hnone] at hcounted
    exact hcounted.destroyed ho

def openTest : Submission Unit Unit := ⟨(),.openSqliteDatabase "test.db",()⟩

theorem objects_outlive_operations_one : ∃ c : OwnedState 1 1 Unit Unit,
    (c.pc (.poster 0)).1 = .posting none (.lock (.operation openTest)) ∧
      c.shared.counters.count () = 2 ∧ LifetimeSafe (fun _ => []) c := by
  let start : OwnedState 1 1 Unit Unit :=
    ⟨⟨startShared (fresh (fun _ => {}) [.config]),.empty,0⟩,fun i => (startPoint i,[])⟩
  have hstart : Reachable (ownedPool (fun _ : Unit => []) sampleEngine ⟨id,id⟩ (fun _ _ => False)
      1 1 (fun _ : Unit => {}) [.config]).lts start := .init ⟨rfl,rfl⟩
  have hcreate := reach_move hstart (.poster 0)
    (OwnedStep.create _ _ .idle [] () trivial (by simp [start,Counters.empty])) trivial
  have hsubmit := reach_next hcreate (OwnedStep.submit _ _ .idle [] _ none openTest trivial
    (Step.call 0 _ _) (by simp [references,SharedOwnership.create])) trivial
  have hsafe := (objects_outlive_operations _ _ _ _ 1 1 _ _).2 _ hsubmit
  exact ⟨_,congrArg Prod.fst (Config.move_self _ _ _ _),rfl,hsafe⟩

end ObjectLifetime
end AlephSql
