import AlephSql.Completion

/-! Objects that are given one operation at a time. Then with any number of workers each object
goes through whole calls, in the order in which they were submitted. -/
namespace AlephSql
namespace AsyncPool

open Transition Interleave Sqlite Database CallSteps Delivery SqlThread

variable {O K : Type} [DecidableEq O] {m n : ℕ}

section Load

def workLoad (o : O) : Work O K → ℕ
  | .operation s => if s.self = o then 1 else 0
  | .callback _ => 0

def bodyLoad (o : O) : Body O K → ℕ
  | .entered x | .calling x _ | .returned x _ | .openFailed x _ => if x.self = o then 1 else 0
  | _ => 0

def pointLoad (o : O) : Point (Work O K) (Body O K) → ℕ
  | .taken t => workLoad o t.work
  | p => (callAt p).elim 0 (fun call => bodyLoad o call.2) + (pending p).elim 0 (workLoad o)

def queueLoad (o : O) (tasks : List (SqlThread.Task (Work O K))) : ℕ :=
  (tasks.map fun t => workLoad o t.work).sum

/-- How many operations on `o` are being posted, queued or called. -/
def underWay (o : O) (c : AsyncState m n O K) : ℕ :=
  queueLoad o c.shared.tasks + ∑ i, pointLoad o (c.pc i)

def newLoad (o : O) : Point (Work O K) (Body O K) → ℕ
  | .posting _ (.lock w) => workLoad o w
  | _ => 0

/-- Runs in which an operation on an object is submitted only while no other one on it is under
way. -/
def OneByOne : Guard (Thread m n) (Shared m n (Work O K) (Data O K))
    (Point (Work O K) (Body O K)) := fun c i d =>
  ∀ k s, d.pc i = .posting k (.lock (.operation s)) → underWay s.self c = 0

/-- The discipline of a client: outside threads submit operations only, and nobody submits one on
an object that has one under way. -/
def Disciplined : Guard (Thread m n) (Shared m n (Work O K) (Data O K))
    (Point (Work O K) (Body O K)) := fun c i d => Submits c i d ∧ OneByOne c i d

variable {E : Engine} {R : Residue} {behaves : Behaviour O} {o : O}

@[simp] theorem queueLoad_append (o : O) (l l' : List (SqlThread.Task (Work O K))) :
    queueLoad o (l ++ l') = queueLoad o l + queueLoad o l' := by simp [queueLoad]

@[simp] theorem queueLoad_cons (o : O) (t : SqlThread.Task (Work O K))
    (l : List (SqlThread.Task (Work O K))) :
    queueLoad o (t :: l) = workLoad o t.work + queueLoad o l := by simp [queueLoad]

theorem bodyLoad_called (t : SqlThread.Task (Work O K)) :
    bodyLoad o (called t) = workLoad o t.work := by
  obtain ⟨i,work⟩ := t
  cases work <;> rfl

theorem act_load {b b' : Body O K} {d d' : Data O K} (h : Act E behaves b d b' d') :
    bodyLoad o b' = bodyLoad o b := by
  cases h <;> rfl

theorem posts_load {b b' : Body O K} {w : Work O K} (h : Posts R b w b') :
    bodyLoad o b' ≤ bodyLoad o b := by
  cases h with
  | submit k s => exact le_rfl
  | _ => exact Nat.zero_le _

theorem step_load {i : Thread m n} {s s' : Shared m n (Work O K) (Data O K)}
    {p p' : Point (Work O K) (Body O K)} (h : Step (asyncCalls E R behaves) i s p s' p') :
    queueLoad o s'.tasks + pointLoad o p' ≤
      queueLoad o s.tasks + pointLoad o p + newLoad o p' := by
  cases h with
  | act w s t b b' d' h =>
    have hbody := act_load (o := o) h
    simp [pointLoad,callAt,pending,hbody]
  | taskPosts w s t b x b' h =>
    have hbody := posts_load (o := o) h
    simp only [pointLoad,callAt,pending,newLoad,Option.elim]
    omega
  | take w s t rest front => simp [pointLoad,callAt,pending,front,newLoad,add_comm]
  | taken w s t =>
    have hbody := bodyLoad_called (o := o) t
    simp [pointLoad,callAt,pending,newLoad,asyncCalls,hbody]
  | postPush i s k x =>
    have hpushed := queueLoad_append o s.tasks [⟨s.pushed.length,x⟩]
    have hone := queueLoad_cons o ⟨s.pushed.length,x⟩ []
    have hnone : queueLoad o ([] : List (SqlThread.Task (Work O K))) = 0 := rfl
    simp only [pointLoad,callAt,pending,newLoad,Option.elim_some,Option.elim_none] at hone ⊢
    omega
  | postLock i s k x | postCount i s k x => simp [pointLoad,callAt,pending,newLoad]
  | _ => simp [pointLoad,callAt,pending,newLoad]

theorem newLoad_pos {p : Point (Work O K) (Body O K)} (h : newLoad o p ≠ 0) :
    ∃ k s, p = .posting k (.lock (.operation s)) ∧ s.self = o ∧ newLoad o p = 1 := by
  cases p with
  | posting k q =>
    cases q with
    | lock w =>
      cases w with
      | operation s =>
        simp only [newLoad,workLoad,ne_eq,ite_eq_right_iff,one_ne_zero,imp_false,not_not] at h
        exact ⟨k,s,rfl,h,by simp [newLoad,workLoad,h]⟩
      | callback k => exact absurd rfl h
    | _ => exact absurd rfl h
  | _ => exact absurd rfl h

end Load

section Turns

variable {E : Engine} {R : Residue} {behaves : Behaviour O} {objects : O → Object}
  {calls : History} {c : AsyncState m n O K}
  {ok : Guard (Thread m n) (Shared m n (Work O K) (Data O K)) (Point (Work O K) (Body O K))}
  (hok : ∀ {c i d}, ok c i d → Disciplined c i d)

theorem underWay_start (o : O) (d : Data O K) :
    underWay o (⟨startShared d,startPoint⟩ : AsyncState m n O K) = 0 := by
  have hnone : ∑ i : Thread m n, pointLoad o (startPoint i : Point (Work O K) (Body O K)) = 0 :=
    Finset.sum_eq_zero fun i _ => by cases i <;> rfl
  simp [underWay,hnone,startShared,queueLoad]

include hok in
theorem underWay_le_one (hc : Reach (asyncPool E R behaves m n objects calls).lts ok c) (o : O) :
    underWay o c ≤ 1 := by
  refine hc.invariant (I := fun c => underWay o c ≤ 1) ?_ ?_
  · rintro ⟨s,pc⟩ ⟨rfl,rfl⟩
    exact (underWay_start o _).le.trans (Nat.zero_le 1)
  · rintro c i d - hle hrun ⟨hstep,hframe⟩
    have hsum := sum_move (fun _ => pointLoad o) hframe
    have hmore := step_load (o := o) hstep
    have hnew : underWay o d ≤ underWay o c + newLoad o (d.pc i) := by
      simp only [underWay]
      omega
    by_cases hpost : newLoad o (d.pc i) = 0
    · omega
    · obtain ⟨k,s,hp,rfl,hone⟩ := newLoad_pos hpost
      have hfree := (hok hrun).2 k s hp
      omega

/-- The operation that a body performs, until it posts the callback. -/
def performs : Body O K → Option (Operation O K)
  | .entered x | .calling x _ | .returned x _ | .openFailed x _ => some x
  | _ => none

def performingAt : Point (Work O K) (Body O K) → Option (Operation O K)
  | .taken t => operationOf t
  | .running _ b | .posting (some (_,b)) _ => performs b
  | _ => none

theorem load_of_performs {b : Body O K} {x : Operation O K} (h : performs b = some x) :
    bodyLoad x.self b = 1 := by
  cases b with
  | entered y | calling y q | returned y r | openFailed y e => cases h; simp [bodyLoad]
  | _ => cases h

theorem load_of_performing {p : Point (Work O K) (Body O K)} {x : Operation O K}
    (h : performingAt p = some x) : 1 ≤ pointLoad x.self p := by
  cases p with
  | taken t =>
    obtain ⟨i,work⟩ := t
    cases work with
    | operation s => cases h; simp [pointLoad,workLoad]
    | callback k => cases h
  | running t b => simp [pointLoad,callAt,load_of_performs h]
  | posting k q =>
    cases k with
    | none => cases h
    | some call => simp [pointLoad,callAt,load_of_performs h]
  | _ => cases h

include hok in
/-- No two threads perform operations on one object. -/
theorem performs_alone (hc : Reach (asyncPool E R behaves m n objects calls).lts ok c)
    {i j : Thread m n} {x y : Operation O K} (hi : performingAt (c.pc i) = some x)
    (hj : performingAt (c.pc j) = some y) (hself : x.self = y.self) : i = j := by
  by_contra hne
  have hle := underWay_le_one hok hc x.self
  have hpair := Finset.add_le_sum (f := fun i => pointLoad x.self (c.pc i))
    (fun _ _ => Nat.zero_le _) (Finset.mem_univ i) (Finset.mem_univ j) hne
  have hmine := load_of_performing hi
  have hother := load_of_performing hj
  rw [← hself] at hother
  simp only [underWay] at hle
  omega

include hok in
theorem queue_free_of_performing (hc : Reach (asyncPool E R behaves m n objects calls).lts ok c)
    {i : Thread m n} {x : Operation O K} (hi : performingAt (c.pc i) = some x) :
    queueLoad x.self c.shared.tasks = 0 := by
  have hle := underWay_le_one hok hc x.self
  have hmine := load_of_performing hi
  have hone := Finset.single_le_sum (f := fun i => pointLoad x.self (c.pc i))
    (fun _ _ => Nat.zero_le _) (Finset.mem_univ i)
  simp only [underWay] at hle
  omega

end Turns

section Served

def Among (E : Engine) (call : Call) (a b : Db × CallPc) : Prop :=
  Tick E call a b ∨ (b.2 = a.2 ∧ b.1.self = a.1.self ∧ a.1.calls <:+ b.1.calls)

/-- A call that goes on without anybody else touching its object. -/
abbrev Undisturbed (E : Engine) (call : Call) : Db × CallPc → Db × CallPc → Prop :=
  Relation.ReflTransGen (Among E call)

/-- From `a` to `b` an object has gone through whole calls, one after the other, with these
outcomes. -/
inductive Served (E : Engine) (a : Db) : List (Operation O K × Outcome) → Db → Prop
  | nil : Served E a [] a
  | call {l : List (Operation O K × Outcome)} {b b' d : Db} (x : Operation O K) (o : Outcome)
      (before : Served E a l b) (self : b'.self = b.self) (later : b.calls <:+ b'.calls)
      (whole : Undisturbed E x.call (b',.start) (d,.done o)) : Served E a (l ++ [(x,o)]) d

def performedOn (o : O) (d : Data O K) : List (Operation O K × Outcome) :=
  d.performed.filter fun y => y.1.self = o

def inCall : Body O K → Option (Operation O K × CallPc)
  | .calling x p => some (x,p)
  | _ => none

def callingAt : Point (Work O K) (Body O K) → Option (Operation O K × CallPc)
  | .running _ b | .posting (some (_,b)) _ => inCall b
  | _ => none

/-- Where the object `o` stands: between two calls, or in the call that one thread is in. -/
def Stands (E : Engine) (b : Db) (o : O) (c : AsyncState m n O K) : Prop :=
  ((∀ i x p, callingAt (c.pc i) = some (x,p) → x.self ≠ o) ∧
    c.shared.data.objects o = b.self ∧ b.calls <:+ c.shared.data.calls) ∨
  ∃ i x p b', callingAt (c.pc i) = some (x,p) ∧ x.self = o ∧ b'.self = b.self ∧
    b.calls <:+ b'.calls ∧
      Undisturbed E x.call (b',.start) (⟨c.shared.data.objects o,c.shared.data.calls⟩,p)

variable {E : Engine} {R : Residue} {objects : O → Object} {calls : History}
  {c d : AsyncState m n O K} {a b : Db} {o : O}
  {ok : Guard (Thread m n) (Shared m n (Work O K) (Data O K)) (Point (Work O K) (Body O K))}
  (hok : ∀ {c i d}, ok c i d → Disciplined c i d)

omit [DecidableEq O] in
theorem performs_of_inCall {b : Body O K} {x : Operation O K} {q : CallPc}
    (h : inCall b = some (x,q)) : performs b = some x := by
  cases b with
  | calling y r => cases h; rfl
  | _ => cases h

omit [DecidableEq O] in
theorem performing_of_calling {p : Point (Work O K) (Body O K)} {x : Operation O K} {q : CallPc}
    (h : callingAt p = some (x,q)) : performingAt p = some x := by
  cases p with
  | running t b => exact performs_of_inCall h
  | posting k q =>
    cases k with
    | none => cases h
    | some call => exact performs_of_inCall h
  | _ => cases h

theorem step_calling {i : Thread m n} {s s' : Shared m n (Work O K) (Data O K)}
    {p p' : Point (Work O K) (Body O K)}
    (h : Step (asyncCalls E R fun _ _ => False) i s p s' p') :
    (s'.data = s.data ∧ callingAt p' = callingAt p) ∨
      ∃ t b b', p = .running t b ∧ p' = .running t b' ∧
        Act E (fun _ _ => False) b s.data b' s'.data := by
  cases h with
  | act w s t b b' d' h => exact .inr ⟨t,b,b',rfl,rfl,h⟩
  | taskPosts w s t b x b' h => cases h <;> exact .inl ⟨rfl,rfl⟩
  | taskReturns w s t b h =>
    cases b with
    | ended x => exact .inl ⟨rfl,rfl⟩
    | inside k => exact .inl ⟨rfl,rfl⟩
    | _ => cases h
  | taken w s t =>
    obtain ⟨i,work⟩ := t
    cases work <;> exact .inl ⟨rfl,rfl⟩
  | postLock i s k | postCount i s k | postPush i s k | postUnlock i s k | postNotifyNobody i s k
  | postNotifyOne i s k => cases k <;> exact .inl ⟨rfl,rfl⟩
  | _ => exact .inl ⟨rfl,rfl⟩

omit [DecidableEq O] in
/-- An object that nobody's action has touched stands where it stood. -/
theorem Stands.stay (h : Stands E b o c)
    (hobject : d.shared.data.objects o = c.shared.data.objects o)
    (hcalls : c.shared.data.calls <:+ d.shared.data.calls)
    (hcalling : ∀ i, callingAt (d.pc i) = callingAt (c.pc i) ∨
      (∀ x p, callingAt (d.pc i) = some (x,p) → x.self ≠ o) ∧
      ∀ x p, callingAt (c.pc i) = some (x,p) → x.self ≠ o) : Stands E b o d := by
  rcases h with ⟨hnone,hself,hlater⟩ | ⟨i,x,p,b',hcall,hx,hself,hlater,hrun⟩
  · refine .inl ⟨fun i x p hi => ?_,hobject.trans hself,hlater.trans hcalls⟩
    rcases hcalling i with heq | ⟨hafter,-⟩
    · exact hnone i x p (heq ▸ hi)
    · exact hafter x p hi
  · refine .inr ⟨i,x,p,b',?_,hx,hself,hlater,hrun.tail (.inr ⟨rfl,hobject,hcalls⟩)⟩
    rcases hcalling i with heq | ⟨-,hbefore⟩
    · exact heq.trans hcall
    · exact absurd hx (hbefore x p hcall)

theorem Stands.inside (hc : Reach (asyncPool E R (fun _ _ => False) m n objects calls).lts ok c)
    (hok : ∀ {c i d}, ok c i d → Disciplined c i d) (h : Stands E b o c) {i : Thread m n}
    {x : Operation O K} {p : CallPc} (hi : callingAt (c.pc i) = some (x,p)) (hx : x.self = o) :
    ∃ b', b'.self = b.self ∧ b.calls <:+ b'.calls ∧
      Undisturbed E x.call (b',.start) (⟨c.shared.data.objects o,c.shared.data.calls⟩,p) := by
  rcases h with ⟨hnone,-,-⟩ | ⟨j,y,q,b',hj,hy,hself,hlater,hrun⟩
  · exact absurd hx (hnone i x p hi)
  · obtain rfl := performs_alone hok hc (performing_of_calling hi) (performing_of_calling hj)
      (hx.trans hy.symm)
    obtain ⟨rfl,rfl⟩ := Prod.mk.inj (Option.some.inj (hi.symm.trans hj))
    exact ⟨b',hself,hlater,hrun⟩

theorem alone_in_call (hc : Reach (asyncPool E R (fun _ _ => False) m n objects calls).lts ok c)
    (hok : ∀ {c i d}, ok c i d → Disciplined c i d) {i j : Thread m n} {x y : Operation O K}
    {q : CallPc} (hi : performingAt (c.pc i) = some x) (hj : callingAt (c.pc j) = some (y,q))
    (hne : j ≠ i) : y.self ≠ x.self := fun hself =>
  hne (performs_alone hok hc (performing_of_calling hj) hi hself)

theorem act_elsewhere {β β' : Body O K} {D D' : Data O K}
    (h : Act E (fun _ _ => False) β D β' D') (ho : ∀ x, performs β = some x → x.self ≠ o) :
    D'.objects o = D.objects o ∧ D.calls <:+ D'.calls ∧ performedOn o D' = performedOn o D ∧
      ∀ x, performs β' = some x → x.self ≠ o := by
  cases h with
  | enter x D => exact ⟨rfl,List.suffix_refl _,rfl,ho⟩
  | api x q q' D db h =>
    obtain ⟨es,hes⟩ := callStep_calls h
    exact ⟨Function.update_of_ne (Ne.symm (ho x rfl)) _ _,⟨es,hes.symm⟩,rfl,ho⟩
  | callReturns x r D => exact ⟨rfl,List.suffix_refl _,by simp [performedOn,ho x rfl],ho⟩
  | openErrmsg x D =>
    exact ⟨Function.update_of_ne (Ne.symm (ho x rfl)) _ _,List.suffix_cons _ _,rfl,ho⟩
  | invoke k D => exact ⟨rfl,List.suffix_refl _,rfl,by simp [performs]⟩
  | callback k D objects' calls' h => exact h.elim

theorem served_act_on (hc : Reach (asyncPool E R (fun _ _ => False) m n objects calls).lts ok c)
    (hok : ∀ {c i d}, ok c i d → Disciplined c i d) {i : Thread m n}
    {t : SqlThread.Task (Work O K)} {β β' : Body O K} (hi : c.pc i = .running t β)
    (hi' : d.pc i = .running t β') (hframe : ∀ j, j ≠ i → d.pc j = c.pc j)
    (h : Act E (fun _ _ => False) β c.shared.data β' d.shared.data) {x : Operation O K}
    (hx : performs β = some x) (ho : x.self = o)
    (hserved : Served E a (performedOn o c.shared.data) b) (hstands : Stands E b o c) :
    ∃ b', Served E a (performedOn o d.shared.data) b' ∧ Stands E b' o d := by
  have hmine : callingAt (c.pc i) = inCall β := by rw [hi]; rfl
  have hmine' : callingAt (d.pc i) = inCall β' := by rw [hi']; rfl
  have hperforms : performingAt (c.pc i) = some x := by rw [hi]; exact hx
  -- nobody else is in a call on `o`
  have helse : ∀ j y q, j ≠ i → callingAt (c.pc j) = some (y,q) → y.self ≠ o := fun j y q hj hy =>
    ho ▸ alone_in_call hc hok hperforms hy hj
  have helse' : inCall β' = none → ∀ j y q, callingAt (d.pc j) = some (y,q) → y.self ≠ o := by
    intro hnone j y q hy
    by_cases hj : j = i
    · rw [hj,hmine',hnone] at hy
      cases hy
    · rw [hframe j hj] at hy
      exact helse j y q hj hy
  generalize hD : c.shared.data = D at h hserved
  generalize hD' : d.shared.data = D' at h
  cases h with
  | enter y D =>
    obtain rfl := Option.some.inj hx
    refine ⟨b,hserved,?_⟩
    rcases hstands with ⟨-,hself,hlater⟩ | ⟨j,z,q,b',hj,hz,-⟩
    · rw [hD] at hself hlater
      refine .inr ⟨i,y,.start,⟨D.objects o,D.calls⟩,hmine',ho,hself,hlater,?_⟩
      rw [hD']
    · by_cases hji : j = i
      · rw [hji,hmine] at hj
        cases hj
      · exact absurd hz (helse j z q hji hj)
  | api y q q' D db h =>
    obtain rfl := Option.some.inj hx
    obtain ⟨b',hself,hlater,hrun⟩ := hstands.inside hc hok hmine ho
    refine ⟨b,hserved,.inr ⟨i,y,q',b',hmine',ho,hself,hlater,hrun.tail (.inl ?_)⟩⟩
    rw [hD,hD']
    simpa [Tick,Data.after,ho] using h
  | callReturns y r D =>
    obtain rfl := Option.some.inj hx
    obtain ⟨b',hself,hlater,hrun⟩ := hstands.inside hc hok hmine ho
    rw [hD] at hrun
    refine ⟨⟨D.objects o,D.calls⟩,?_,.inl ⟨helse' rfl,by rw [hD'],by rw [hD']⟩⟩
    simpa [performedOn,ho] using hserved.call y r hself hlater hrun
  | openErrmsg y D =>
    refine ⟨b,hserved,hstands.stay ?_ ?_ fun j => ?_⟩
    · rw [hD,hD']
      simp [Data.after,Db.errmsg,Db.log]
    · rw [hD,hD']
      exact List.suffix_cons _ _
    · by_cases hj : j = i
      · exact .inl (by rw [hj,hmine,hmine']; rfl)
      · exact .inl (by rw [hframe j hj])
  | invoke k D => cases hx
  | callback k D objects' calls' h => exact h.elim

theorem served_act (hc : Reach (asyncPool E R (fun _ _ => False) m n objects calls).lts ok c)
    (hok : ∀ {c i d}, ok c i d → Disciplined c i d) {i : Thread m n}
    {t : SqlThread.Task (Work O K)} {β β' : Body O K} (hi : c.pc i = .running t β)
    (hi' : d.pc i = .running t β') (hframe : ∀ j, j ≠ i → d.pc j = c.pc j)
    (h : Act E (fun _ _ => False) β c.shared.data β' d.shared.data)
    (hserved : Served E a (performedOn o c.shared.data) b) (hstands : Stands E b o c) :
    ∃ b', Served E a (performedOn o d.shared.data) b' ∧ Stands E b' o d := by
  by_cases hon : ∃ x, performs β = some x ∧ x.self = o
  · obtain ⟨x,hx,ho⟩ := hon
    exact served_act_on hc hok hi hi' hframe h hx ho hserved hstands
  · have ho : ∀ x, performs β = some x → x.self ≠ o := fun x hx hself => hon ⟨x,hx,hself⟩
    obtain ⟨hobject,hlater,hsame,ho'⟩ := act_elsewhere h ho
    refine ⟨b,hsame ▸ hserved,hstands.stay hobject hlater fun j => ?_⟩
    by_cases hj : j = i
    · subst hj
      rw [hi,hi']
      exact .inr ⟨fun x p hx => ho' x (performs_of_inCall hx),
        fun x p hx => ho x (performs_of_inCall hx)⟩
    · exact .inl (by rw [hframe j hj])

/-- At every moment each object has gone through whole calls, and stands between two of them or in
one call of one thread. -/
theorem served (hok : ∀ {c i d}, ok c i d → Disciplined c i d)
    (hc : Reach (asyncPool E R (fun _ _ => False) m n objects calls).lts ok c) (o : O) :
    ∃ b, Served E ⟨objects o,calls⟩ (performedOn o c.shared.data) b ∧ Stands E b o c := by
  refine hc.invariant (I := fun c => ∃ b, Served E ⟨objects o,calls⟩
    (performedOn o c.shared.data) b ∧ Stands E b o c) ?_ ?_
  · rintro c ⟨hs,hp⟩
    refine ⟨⟨objects o,calls⟩,?_,.inl ⟨fun i x p hi => ?_,?_,?_⟩⟩
    · rw [hs]
      exact .nil
    · rw [hp] at hi
      cases i <;> cases hi
    · rw [hs]
      rfl
    · rw [hs]
      exact List.suffix_refl _
  · rintro c i d hc ⟨b,hserved,hstands⟩ hrun ⟨hstep,hframe⟩
    rcases step_calling hstep with ⟨hdata,hcalling⟩ | ⟨t,β,β',hi,hi',hact⟩
    · refine ⟨b,hdata ▸ hserved,hstands.stay (by rw [hdata]) (by rw [hdata]) fun j => .inl ?_⟩
      by_cases hj : j = i
      · exact hj ▸ hcalling
      · rw [hframe j hj]
    · exact served_act hc hok hi hi' hframe hact hserved hstands

end Served

section Order

/-- All calls performed on the object of `x` were submitted before it. -/
def Comes (d : Data O K) (x : Operation O K) : Prop :=
  ∀ y ∈ d.performed, y.1.self = x.self → y.1.ticket < x.ticket

def waits : Body O K → Option (Operation O K)
  | .entered x | .calling x _ => some x
  | _ => none

def waitingAt : Point (Work O K) (Body O K) → Option (Operation O K)
  | .taken t => operationOf t
  | .running _ b | .posting (some (_,b)) _ => waits b
  | _ => none

variable {E : Engine} {R : Residue} {behaves : Behaviour O} {objects : O → Object}
  {calls : History} {c : AsyncState m n O K} {d d' : Data O K} {x y : Operation O K}
  {i : Thread m n} {s s' : Shared m n (Work O K) (Data O K)}
  {p p' : Point (Work O K) (Body O K)}
  {ok : Guard (Thread m n) (Shared m n (Work O K) (Data O K)) (Point (Work O K) (Body O K))}
  (hok : ∀ {c i d}, ok c i d → Disciplined c i d)

omit [DecidableEq O] in
theorem performing_of_waiting (h : waitingAt p = some x) : performingAt p = some x := by
  have hbody : ∀ b : Body O K, waits b = some x → performs b = some x := by
    intro b hb
    cases b with
    | entered y | calling y q => exact hb
    | _ => cases hb
  cases p with
  | taken t => exact h
  | running t b => exact hbody b h
  | posting k q =>
    cases k with
    | none => cases h
    | some call => exact hbody call.2 h
  | _ => cases h

omit [DecidableEq O] in
theorem Comes.snoc {r : Outcome} (h : Comes d x) (hd : d'.performed = d.performed ++ [(y,r)])
    (hne : y.self ≠ x.self) : Comes d' x := by
  intro z hz hself
  rw [hd] at hz
  rcases List.mem_append.mp hz with hz | hz
  · exact h z hz hself
  · rw [List.mem_singleton.mp hz] at hself
    exact absurd hself hne

theorem step_waiting (h : Step (asyncCalls E R behaves) i s p s' p') (hx : waitingAt p' = some x) :
    waitingAt p = some x ∨ x ∈ operations s.tasks := by
  cases h with
  | take w s t rest front =>
    right
    rw [front]
    exact List.mem_filterMap.mpr ⟨t,List.mem_cons_self,hx⟩
  | taken w s t =>
    obtain ⟨i,work⟩ := t
    cases work with
    | operation z => exact .inl hx
    | callback k => cases hx
  | act w s t b b' d' h =>
    cases h with
    | enter z d | api z q q' d db h => exact .inl hx
    | _ => cases hx
  | taskPosts w s t b z b' h => cases h <;> cases hx
  | postLock i s k | postCount i s k | postPush i s k | postUnlock i s k | postNotifyNobody i s k
  | postNotifyOne i s k =>
    cases k with
    | none => cases hx
    | some call => exact .inl hx
  | returnToTask i s t b => exact .inl hx
  | _ => cases hx

theorem step_operations (h : Step (asyncCalls E R behaves) i s p s' p')
    (hx : x ∈ operations s'.tasks) : x ∈ operations s.tasks ∨ x.ticket = s.pushed.length := by
  cases h with
  | postPush i s k w =>
    simp only [operations_append,operations_singleton,List.mem_append] at hx
    rcases hx with hold | hnew
    · exact .inl hold
    · right
      cases w with
      | operation z => rw [List.mem_singleton.mp hnew]
      | callback k => cases hnew
  | take w s t rest front =>
    left
    rw [front]
    exact (List.sublist_cons_self t rest).filterMap operationOf |>.subset hx
  | _ => exact .inl hx

theorem step_performed (h : Step (asyncCalls E R behaves) i s p s' p') :
    s'.data.performed = s.data.performed ∨
      ∃ y r, waitingAt p = some y ∧ waitingAt p' = none ∧ s'.tasks = s.tasks ∧
        s'.data.performed = s.data.performed ++ [(y,r)] := by
  cases h with
  | act w s t b b' d' h =>
    cases h with
    | callReturns y r d => exact .inr ⟨y,r,rfl,rfl,rfl,rfl⟩
    | _ => exact .inl rfl
  | _ => exact .inl rfl

structure Sorted (s : Shared m n (Work O K) (Data O K)) (p : Point (Work O K) (Body O K)) :
    Prop where
  queued : ∀ x ∈ operations s.tasks, Comes s.data x
  waiting : ∀ x, waitingAt p = some x → Comes s.data x
  performed : ∀ o : O,
    ((s.data.performed.filter fun y => y.1.self = o).map fun y => y.1.ticket).Pairwise (· < ·)

theorem load_of_queued {tasks : List (SqlThread.Task (Work O K))} (h : x ∈ operations tasks) :
    queueLoad x.self tasks ≠ 0 := by
  obtain ⟨t,ht,hx⟩ := List.mem_filterMap.mp h
  have hload : workLoad x.self t.work = 1 := by
    obtain ⟨i,work⟩ := t
    cases work with
    | operation z => cases hx; simp [workLoad]
    | callback k => cases hx
  have hle := List.single_le_sum (l := tasks.map fun t => workLoad x.self t.work)
    (fun _ _ => Nat.zero_le _) 1 (List.mem_map.mpr ⟨t,ht,hload⟩)
  intro hzero
  rw [queueLoad] at hzero
  omega

theorem Sorted.snoc (h : Sorted s p) (hy : waitingAt p = some y) {r : Outcome}
    (hd : d'.performed = s.data.performed ++ [(y,r)]) (o : O) :
    ((d'.performed.filter fun y => y.1.self = o).map fun y => y.1.ticket).Pairwise (· < ·) := by
  have hold := h.performed o
  rw [hd]
  by_cases ho : y.self = o
  · simp only [List.filter_append,List.map_append,List.pairwise_append]
    refine ⟨hold,by simp [ho],?_⟩
    intro k hk l hl
    obtain ⟨z,hz,rfl⟩ := List.mem_map.mp hk
    obtain ⟨hmem,hself⟩ := List.mem_filter.mp hz
    obtain rfl : l = y.ticket := by simpa [ho] using hl
    exact h.waiting y hy z hmem (by simpa [ho] using hself)
  · simpa [ho] using hold

include hok in
theorem performed_ticket_lt (hc : Reach (asyncPool E R behaves m n objects calls).lts ok c)
    {z : Operation O K × Outcome} (hz : z ∈ c.shared.data.performed) :
    z.1.ticket < c.shared.pushed.length := by
  have hpushed := submitted_of_performed (fun h => (hok h).1) hc hz
  obtain ⟨⟨j,work⟩,ht,hop⟩ := List.mem_filterMap.mp hpushed
  cases work with
  | operation x =>
    rw [← Option.some.inj hop]
    exact ticket_lt_of_mem_pushed hc ht
  | callback k => cases hop

include hok in
theorem sorted (hc : Reach (asyncPool E R behaves m n objects calls).lts ok c) :
    ∀ i, Sorted c.shared (c.pc i) := by
  refine hc.invariant (I := fun c => ∀ i, Sorted c.shared (c.pc i)) ?_ ?_
  · rintro c ⟨hs,hp⟩ i
    rw [hs,hp]
    refine ⟨fun x hx => ?_,fun x hx => ?_,fun o => .nil⟩
    · cases hx
    · cases i <;> cases hx
  · rintro c i d hc hq - ⟨hstep,hframe⟩ j
    rcases step_performed hstep with hsame | ⟨y,r,hy,hnone,htasks,hgrown⟩
    · have hcomes : ∀ x, Comes c.shared.data x → Comes d.shared.data x := by
        intro x hx
        rwa [Comes,hsame]
      refine ⟨fun x hx => ?_,fun x hx => hcomes x ?_,hsame ▸ (hq i).performed⟩
      · rcases step_operations hstep hx with hold | hnew
        · exact hcomes x ((hq i).queued x hold)
        · -- all that has been performed has been pushed
          intro z hz _
          rw [hsame] at hz
          rw [hnew]
          exact performed_ticket_lt hok hc hz
      · by_cases hj : j = i
        · subst hj
          rcases step_waiting hstep hx with hold | hold
          · exact (hq j).waiting x hold
          · exact (hq j).queued x hold
        · exact (hq j).waiting x (hframe j hj ▸ hx)
    · have hperforms := performing_of_waiting hy
      refine ⟨fun x hx => ?_,fun x hx => ?_,(hq i).snoc hy hgrown⟩
      · rw [htasks] at hx
        refine ((hq i).queued x hx).snoc hgrown fun hself => load_of_queued hx ?_
        exact hself ▸ queue_free_of_performing hok hc hperforms
      · by_cases hj : j = i
        · rw [hj,hnone] at hx
          cases hx
        · rw [hframe j hj] at hx
          exact ((hq j).waiting x hx).snoc hgrown fun hself =>
            hj (performs_alone hok hc (performing_of_waiting hx) hperforms hself.symm)

end Order

theorem objects_served_in_turn (E : Engine) (R : Residue) (m n : ℕ) (objects : O → Object)
    (calls : History) (c : AsyncState m n O K)
    (hc : Reach (asyncPool E R (fun _ _ => False) m n objects calls).lts Disciplined c) :
    (∀ i j x y, performingAt (c.pc i) = some x → performingAt (c.pc j) = some y →
      x.self = y.self → i = j) ∧
    ∀ o, (∃ b, Served E ⟨objects o,calls⟩ (performedOn o c.shared.data) b ∧ Stands E b o c) ∧
      ((performedOn o c.shared.data).map fun y => y.1.ticket).Pairwise (· < ·) :=
  ⟨fun _ _ _ _ hi hj hself => performs_alone id hc hi hj hself,
    fun o => ⟨served id hc o,(sorted id hc .destroyer).performed o⟩⟩

theorem disciplined_next {C : Calls (Work O K) (Body O K) (Data O K)} {d₀ : Data O K}
    {c : AsyncState m n O K} {i : Thread m n} {s s' : Shared m n (Work O K) (Data O K)}
    {p p' : Point (Work O K) (Body O K)}
    (hc : Reach (pool C m n d₀).lts Disciplined (c.move i s p)) (h : Step C i s p s' p')
    (hp : ∀ k x, p' ≠ .posting k (.lock x)) :
    Reach (pool C m n d₀).lts Disciplined (c.move i s' p') := by
  have hne : ∀ k x, (c.move i s' p').pc i ≠ .posting k (.lock x) := by
    intro k x
    rw [Config.move_self]
    exact hp k x
  exact reach_next hc h ⟨fun j x _ hx => absurd hx (hne none x),
    fun k x hx => absurd hx (hne k _)⟩

def firstBegun (objects : O → Object) (calls : History) (x : Submission O K) :
    Shared 1 1 (Work O K) (Data O K) :=
  { startShared { fresh objects calls with begun := [⟨x,0⟩] } with
    stop := true, runningCount := 1, pushed := [taskOf ⟨x,0⟩], started := [taskOf ⟨x,0⟩] }

theorem first_begun (E : Engine) (R : Residue) (behaves : Behaviour O) (objects : O → Object)
    (calls : History) (x : Submission O K) : ∃ c : AsyncState 1 1 O K,
    Reach (asyncPool E R behaves 1 1 objects calls).lts Disciplined (c.move (.worker 0)
      (firstBegun objects calls x) (.running (taskOf ⟨x,0⟩) (.calling ⟨x,0⟩ .start))) := by
  let start : AsyncState 1 1 O K := ⟨startShared (fresh objects calls),startPoint⟩
  have hstart : Reach (asyncPool E R behaves 1 1 objects calls).lts Disciplined start :=
    .init ⟨rfl,rfl⟩
  have hcall := reach_move hstart (.poster 0) (Step.call 0 _ (.operation x))
    ⟨fun j y _ hy => ⟨x,by simpa using hy.symm⟩,fun _ _ _ => underWay_start _ _⟩
  have hlock := disciplined_next hcall (Step.postLock _ _ none _ rfl) (by simp)
  have hcount := disciplined_next hlock (Step.postCount _ _ none _) (by simp)
  have hpush := disciplined_next hcount (Step.postPush _ _ none _) (by simp)
  have hunlock := disciplined_next hpush (Step.postUnlock _ _ none) (by simp)
  have hstop := reach_move hunlock .destroyer (Step.storeStop _)
    ⟨by simp [Submits],by simp [OneByOne]⟩
  have hfirst := reach_move hstop (.worker 0) (Step.lockTasks 0 _ rfl)
    ⟨by simp [Submits],by simp [OneByOne]⟩
  have hpass := disciplined_next hfirst (Step.predicateTrue 0 _ rfl) (by simp)
  have htake := disciplined_next hpass (Step.take 0 _ (taskOf ⟨x,0⟩) [] rfl) (by simp)
  have htaken := disciplined_next htake (Step.taken 0 _ _) (by simp)
  exact ⟨_,disciplined_next htaken (Step.act 0 _ _ _ _ _ (Act.enter ⟨x,0⟩ (fresh objects calls)))
    (by simp)⟩

theorem objects_served_in_turn_open : ∃ c : AsyncState 1 1 Unit Unit,
    performingAt (c.pc (.worker 0)) = some openOnce ∧
    (∀ i j x y, performingAt (c.pc i) = some x → performingAt (c.pc j) = some y →
      x.self = y.self → i = j) ∧
    ∀ o, (∃ b, Served sampleEngine ⟨{},[.config]⟩ (performedOn o c.shared.data) b ∧
      Stands sampleEngine b o c) ∧
      ((performedOn o c.shared.data).map fun y => y.1.ticket).Pairwise (· < ·) := by
  obtain ⟨c,hc⟩ := first_begun sampleEngine ⟨id,id⟩ (fun _ _ => False) (fun _ => {}) [.config]
    openOnce.toSubmission
  have hserved := objects_served_in_turn sampleEngine ⟨id,id⟩ 1 1 (fun _ => {}) [.config] _ hc
  exact ⟨_,congrArg performingAt (Config.move_self c _ _ _),hserved⟩

end AsyncPool
end AlephSql
