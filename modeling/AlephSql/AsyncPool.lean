import AlephSql.CallAccount
import AlephSql.CallSteps
import AlephSql.Delivery
import AlephSql.Drain

/-! The asynchronous calls on the pool. Each is two tasks: the operation, which runs the
synchronous function one API call at a time among the other workers, and the callback that it
posts; the callback may submit further operations. -/
namespace AlephSql
namespace AsyncPool

open Transition Interleave Sqlite Database CallSteps Delivery SqlThread

variable {O K : Type}

/-- The captures of an operation's task: `self`, the call with its arguments, and `token`. -/
structure Submission (O K : Type) where
  self : O
  call : Call
  token : K

structure Operation (O K : Type) extends Submission O K where
  ticket : ℕ

/-- What a callback is called with. -/
inductive Arguments
  | opened (pair : ErrorCode × String)
  | executed (triple : Triple)

/-- A callback with its arguments bound. The operation that posted it is ghost. -/
structure Completion (K : Type) where
  op : ℕ
  token : K
  args : Arguments

inductive Work (O K : Type)
  | operation (s : Submission O K)
  | callback (k : Completion K)

inductive Body (O K : Type)
  | entered (x : Operation O K)
  | calling (x : Operation O K) (p : CallPc)
  | returned (x : Operation O K) (outcome : Outcome)
  | openFailed (x : Operation O K) (errorMessage : String)
  | ended (x : Operation O K)
  | deliver (k : Completion K)
  | inside (k : Completion K)

/-- The database objects and the engine's calls, with three ghost logs: the database calls
begun, those that have returned, and the callbacks invoked. -/
structure Data (O K : Type) where
  objects : O → Object
  calls : History
  begun : List (Operation O K)
  performed : List (Operation O K × Outcome)
  invoked : List (Completion K)

abbrev World (O : Type) := (O → Object) × History

/-- What a callback's own code may do to the objects. -/
abbrev Behaviour (O : Type) := World O → World O → Prop

def called (t : SqlThread.Task (Work O K)) : Body O K :=
  match t.work with
  | .operation s => .entered ⟨s,t.ticket⟩
  | .callback k => .deliver k

section Tasks

variable [DecidableEq O]

def Data.after (d : Data O K) (o : O) (db : Db) : Data O K :=
  { d with objects := Function.update d.objects o db.self, calls := db.calls }

/-- The actions inside the tasks. -/
inductive Act (E : Engine) (behaves : Behaviour O) :
    Body O K → Data O K → Body O K → Data O K → Prop
  | enter (x d) :
      Act E behaves (.entered x) d (.calling x .start) { d with begun := d.begun ++ [x] }
  | api (x p p' d) (db : Db) (h : callStep E x.call ⟨d.objects x.self,d.calls⟩ p = some (db,p')) :
      Act E behaves (.calling x p) d (.calling x p') (d.after x.self db)
  | callReturns (x o d) :
      Act E behaves (.calling x (.done o)) d (.returned x o)
        { d with performed := d.performed ++ [(x,o)] }
  -- async_open_sqlite_database asks for the message itself
  | openErrmsg (x d) :
      Act E behaves (.returned x (.opened false)) d
        (.openFailed x (Db.errmsg E ⟨d.objects x.self,d.calls⟩).1)
        (d.after x.self (Db.errmsg E ⟨d.objects x.self,d.calls⟩).2)
  | invoke (k d) :
      Act E behaves (.deliver k) d (.inside k) { d with invoked := d.invoked ++ [k] }
  | callback (k d objects calls) (h : behaves (d.objects,d.calls) (objects,calls)) :
      Act E behaves (.inside k) d (.inside k) { d with objects := objects, calls := calls }

/-- The triple that an executing operation posts. -/
def tripleOf (R : Residue) (call : Call) (r : ExecuteResult) : Triple :=
  match call with
  | .executeSqliteSelect _ _ => selectTriple R r
  | _ => executeTriple R r

omit [DecidableEq O] in
theorem tripleOf_executeResult {R : Residue} (call : Call) (r : ExecuteResult) :
    (tripleOf R call r).executeResult = r := by
  cases call with
  | executeSqliteSelect sql args => exact selectTriple_executeResult r
  | _ => exact executeTriple_executeResult r

inductive Posts (R : Residue) : Body O K → Work O K → Body O K → Prop
  | opened (x) :
      Posts R (.returned x (.opened true))
        (.callback ⟨x.ticket,x.token,.opened (openPair true "")⟩) (.ended x)
  | openFailed (x m) :
      Posts R (.openFailed x m) (.callback ⟨x.ticket,x.token,.opened (openPair false m)⟩) (.ended x)
  | executed (x r) :
      Posts R (.returned x (.executed r))
        (.callback ⟨x.ticket,x.token,.executed (tripleOf R x.call r)⟩) (.ended x)
  | submit (k s) : Posts R (.inside k) (.operation s) (.inside k)

/-- An operation's task returns once it has posted; a callback may return at any time. -/
def Returns : Body O K → Prop
  | .ended _ | .inside _ => True
  | _ => False

def asyncCalls (E : Engine) (R : Residue) (behaves : Behaviour O) :
    Calls (Work O K) (Body O K) (Data O K) where
  call := called
  act := Act E behaves
  post := Posts R
  returned := Returns

end Tasks

def fresh (objects : O → Object) (calls : History) : Data O K := ⟨objects,calls,[],[],[]⟩

/-- Threads outside the pool submit operations, and nothing else. -/
def Submits {m n : ℕ} : Guard (Thread m n) (Shared m n (Work O K) (Data O K))
    (Point (Work O K) (Body O K)) := fun _ i d =>
  ∀ j x, i = .poster j → d.pc i = .posting none (.lock x) → ∃ s, x = .operation s

section Told

/-- The arguments say how the database call ended. -/
def Carries : Outcome → Arguments → Prop
  | .opened success, .opened pair => pair.1.truthy = !success
  | .executed r, .executed t => t.executeResult = r
  | _, _ => False

/-- A callback belongs to an operation that has been performed and reports its outcome. -/
def Truthful (d : Data O K) (k : Completion K) : Prop :=
  ∃ x o, (x,o) ∈ d.performed ∧ k.op = x.ticket ∧ k.token = x.token ∧ Carries o k.args

def taskOf (x : Operation O K) : SqlThread.Task (Work O K) := ⟨x.ticket,.operation x.toSubmission⟩

def Proper (d : Data O K) (t : SqlThread.Task (Work O K)) : Body O K → Prop
  | .entered x | .calling x _ | .ended x => t = taskOf x
  | .returned x o => t = taskOf x ∧ (x,o) ∈ d.performed
  | .openFailed x _ => t = taskOf x ∧ (x,.opened false) ∈ d.performed
  | .deliver k | .inside k => t.work = .callback k

/-- Callbacks are truthful from the moment they are posted. -/
structure Told {m n : ℕ} (s : Shared m n (Work O K) (Data O K)) (p : Point (Work O K) (Body O K)) :
    Prop where
  proper : ∀ t b, callAt p = some (t,b) → Proper s.data t b
  pending : ∀ k, pending p = some (.callback k) → Truthful s.data k
  pushed : ∀ t ∈ s.pushed, ∀ k, t.work = .callback k → Truthful s.data k

def Later (d d' : Data O K) : Prop := d.performed ⊆ d'.performed

variable {d d' : Data O K} {b b' : Body O K} {t : SqlThread.Task (Work O K)}

theorem Truthful.later {k : Completion K} (h : Truthful d k) (hd : Later d d') : Truthful d' k := by
  obtain ⟨x,o,hx,hk⟩ := h
  exact ⟨x,o,hd hx,hk⟩

theorem Proper.later (h : Proper d t b) (hd : Later d d') : Proper d' t b := by
  cases b with
  | returned x o => exact ⟨h.1,hd h.2⟩
  | openFailed x m => exact ⟨h.1,hd h.2⟩
  | _ => exact h

theorem proper_called (d : Data O K) (t : SqlThread.Task (Work O K)) : Proper d t (called t) := by
  obtain ⟨i,work⟩ := t
  cases work <;> rfl

variable [DecidableEq O] {E : Engine} {R : Residue} {behaves : Behaviour O}

theorem act_later (h : Act E behaves b d b' d') : Later d d' := by
  cases h with
  | callReturns x o d => exact List.subset_append_left _ _
  | _ => exact List.Subset.refl _

theorem act_proper (h : Act E behaves b d b' d') (hb : Proper d t b) : Proper d' t b' := by
  cases h with
  | callReturns x o d => exact ⟨hb,by simp⟩
  | openErrmsg x d => exact hb
  | _ => exact hb

omit [DecidableEq O] in
theorem posts_proper {w : Work O K} (h : Posts R b w b') (hb : Proper d t b) : Proper d t b' := by
  cases h with
  | submit k s => exact hb
  | _ => exact hb.1

omit [DecidableEq O] in
theorem posts_truthful {k : Completion K} (h : Posts R b (.callback k) b') (hb : Proper d t b) :
    Truthful d k := by
  cases h with
  | opened x => exact ⟨x,_,hb.2,rfl,rfl,rfl⟩
  | openFailed x m => exact ⟨x,_,hb.2,rfl,rfl,rfl⟩
  | executed x r => exact ⟨x,_,hb.2,rfl,rfl,tripleOf_executeResult x.call r⟩

end Told

section Run

variable [DecidableEq O] {m n : ℕ} {E : Engine} {R : Residue} {behaves : Behaviour O}
  {objects : O → Object} {calls : History}

/-- The pool with the tasks of the asynchronous API. -/
abbrev asyncPool (E : Engine) (R : Residue) (behaves : Behaviour O) (m n : ℕ)
    (objects : O → Object) (calls : History) :
    Threads (Thread m n) (Shared m n (Work O K) (Data O K)) (Point (Work O K) (Body O K)) :=
  pool (asyncCalls E R behaves) m n (fresh objects calls)

abbrev AsyncState (m n : ℕ) (O K : Type) := State m n (Work O K) (Body O K) (Data O K)

theorem step_later {i : Thread m n} {s s' : Shared m n (Work O K) (Data O K)}
    {p p' : Point (Work O K) (Body O K)} (h : Step (asyncCalls E R behaves) i s p s' p') :
    Later s.data s'.data := by
  cases h with
  | act w s t b b' d' h => exact act_later h
  | _ => exact List.Subset.refl _

omit [DecidableEq O] in
theorem step_pushed {C : Calls (Work O K) (Body O K) (Data O K)} {i : Thread m n}
    {s s' : Shared m n (Work O K) (Data O K)} {p p' : Point (Work O K) (Body O K)}
    (h : Step C i s p s' p') {t : SqlThread.Task (Work O K)} (ht : t ∈ s'.pushed) :
    t ∈ s.pushed ∨ pending p = some t.work := by
  cases h with
  | postPush i s k x =>
    rcases List.mem_append.mp ht with hold | hnew
    · exact .inl hold
    · right
      rw [List.mem_singleton.mp hnew]
      rfl
  | _ => exact .inl ht

theorem step_told {i : Thread m n} {s s' : Shared m n (Work O K) (Data O K)}
    {p p' : Point (Work O K) (Body O K)} (h : Step (asyncCalls E R behaves) i s p s' p')
    (hp : Told s p) (hout : ∀ j x, i = .poster j → p' = .posting none (.lock x) →
      ∃ s, x = .operation s) : Told s' p' := by
  have hpushed : ∀ t ∈ s'.pushed, ∀ k, t.work = .callback k → Truthful s'.data k := by
    intro t ht k hk
    rcases step_pushed h ht with hold | hnew
    · exact (hp.pushed t hold k hk).later (step_later h)
    · exact (hp.pending k (hk ▸ hnew)).later (step_later h)
  cases h with
  | call i s x =>
    obtain ⟨y,rfl⟩ := hout i x rfl rfl
    exact ⟨hp.proper,by simp [pending],hpushed⟩
  | act w s t b b' d' h =>
    refine ⟨?_,by simp [pending],hpushed⟩
    rintro u c ⟨⟩
    exact act_proper h (hp.proper t b rfl)
  | taskPosts w s t b x b' h =>
    have hproper := hp.proper t b rfl
    refine ⟨?_,?_,hpushed⟩
    · rintro u c ⟨⟩
      exact posts_proper h hproper
    · rintro k ⟨⟩
      exact posts_truthful h hproper
  | taken w s t =>
    refine ⟨?_,by simp [pending],hpushed⟩
    rintro u c ⟨⟩
    exact proper_called _ t
  | taskReturns w s t b h => exact ⟨by simp [callAt],by simp [pending],hpushed⟩
  | postPush i s k x => exact ⟨hp.proper,by simp [pending],hpushed⟩
  | _ => exact ⟨hp.proper,hp.pending,hpushed⟩

theorem step_told_other {i : Thread m n} {s s' : Shared m n (Work O K) (Data O K)}
    {p p' q : Point (Work O K) (Body O K)} (h : Step (asyncCalls E R behaves) i s p s' p')
    (hp : Told s p) (hq : Told s q) : Told s' q where
  proper t b ht := (hq.proper t b ht).later (step_later h)
  pending k hk := (hq.pending k hk).later (step_later h)
  pushed t ht k hk := by
    rcases step_pushed h ht with hold | hnew
    · exact (hq.pushed t hold k hk).later (step_later h)
    · exact (hp.pending k (hk ▸ hnew)).later (step_later h)

variable {c : AsyncState m n O K} {ok : Guard (Thread m n) (Shared m n (Work O K) (Data O K))
  (Point (Work O K) (Body O K))} (hok : ∀ {c i d}, ok c i d → Submits c i d)

include hok in
theorem told (hc : Reach (asyncPool E R behaves m n objects calls).lts ok c) (i : Thread m n) :
    Told c.shared (c.pc i) := by
  refine local_invariant (Q := fun _ s p => Told s p) ?_ ?_ ?_ hc i
  · rintro s pc ⟨rfl,rfl⟩ i
    refine ⟨?_,?_,by simp [startShared]⟩
    · cases i <;> simp [startPoint,callAt]
    · cases i <;> simp [startPoint,pending]
  · intro c d i _ hrun h hq
    exact step_told h (hq i) (hok hrun)
  · intro c d i j _ _ _ h hq
    exact step_told_other h (hq i) (hq j)

end Run

end AsyncPool
end AlephSql
