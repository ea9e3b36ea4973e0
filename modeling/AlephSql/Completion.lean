import AlephSql.AsyncPool

/-! Every asynchronous operation completes its callback once: accounts of the database calls
performed, the callbacks posted and the callbacks invoked, and what they say when the pool has
shut down. -/
namespace AlephSql
namespace AsyncPool

open Transition Interleave Sqlite Database CallSteps Delivery SqlThread

variable {O K : Type}

section Accounts

def operationOf (t : SqlThread.Task (Work O K)) : Option (Operation O K) :=
  match t.work with
  | .operation s => some ⟨s,t.ticket⟩
  | .callback _ => none

def completionOf (t : SqlThread.Task (Work O K)) : Option (Completion K) :=
  match t.work with
  | .operation _ => none
  | .callback k => some k

def operations (tasks : List (SqlThread.Task (Work O K))) : List (Operation O K) :=
  tasks.filterMap operationOf

def completions (tasks : List (SqlThread.Task (Work O K))) : List (Completion K) :=
  tasks.filterMap completionOf

@[simp] theorem operations_append (l l' : List (SqlThread.Task (Work O K))) :
    operations (l ++ l') = operations l ++ operations l' := List.filterMap_append

@[simp] theorem operations_singleton (t : SqlThread.Task (Work O K)) :
    operations [t] = (operationOf t).toList := by
  obtain ⟨i,work⟩ := t
  cases work <;> rfl

@[simp] theorem completions_append (l l' : List (SqlThread.Task (Work O K))) :
    completions (l ++ l') = completions l ++ completions l' := List.filterMap_append

@[simp] theorem completions_singleton (t : SqlThread.Task (Work O K)) :
    completions [t] = (completionOf t).toList := by
  obtain ⟨i,work⟩ := t
  cases work <;> rfl

/-- The operation whose database call has returned in a running task. -/
def performing (_ : SqlThread.Task (Work O K)) : Body O K → Multiset (Operation O K)
  | .returned x _ | .openFailed x _ | .ended x => {x}
  | _ => 0

/-- The operation whose callback a running task has yet to post. -/
def owed (_ : SqlThread.Task (Work O K)) : Body O K → Multiset ℕ
  | .returned x _ | .openFailed x _ => {x.ticket}
  | _ => 0

def invoking (_ : SqlThread.Task (Work O K)) : Body O K → Multiset (Completion K)
  | .inside k => {k}
  | _ => 0

def performedOps (d : Data O K) : Multiset (Operation O K) := (d.performed.map Prod.fst : List _)

def performedTickets (d : Data O K) : Multiset ℕ := (performedOps d).map Operation.ticket

/-- The operation that a posted function completes. -/
def completes : Work O K → Multiset ℕ
  | .operation _ => 0
  | .callback k => {k.op}

theorem called_performing (t : SqlThread.Task (Work O K)) : performing t (called t) = 0 := by
  obtain ⟨i,work⟩ := t
  cases work <;> rfl

theorem called_owed (t : SqlThread.Task (Work O K)) : owed t (called t) = 0 := by
  obtain ⟨i,work⟩ := t
  cases work <;> rfl

theorem called_invoking (t : SqlThread.Task (Work O K)) : invoking t (called t) = 0 := by
  obtain ⟨i,work⟩ := t
  cases work <;> rfl

theorem parts_completes (tasks : List (SqlThread.Task (Work O K))) :
    parts (fun t => completes t.work) tasks = ((completions tasks).map Completion.op : List ℕ) := by
  have hpart : ∀ t : SqlThread.Task (Work O K), completes t.work =
      (((completionOf t).map Completion.op).toList : Multiset ℕ) := by
    rintro ⟨i,work⟩
    cases work <;> rfl
  rw [completions,List.map_filterMap]
  simp only [hpart,parts_filterMap]

section Actions

variable {R : Residue} {t : SqlThread.Task (Work O K)} {b b' : Body O K} {d d' : Data O K}
  {w : Work O K}

theorem posts_performing (h : Posts R b w b') : performing t b' = performing t b := by
  cases h <;> rfl

theorem posts_owed (h : Posts R b w b') : owed t b = owed t b' + completes w := by
  cases h <;> simp [owed,completes]

theorem posts_invoking (h : Posts R b w b') : invoking t b' = invoking t b := by
  cases h <;> rfl

theorem returns_performing (h : Returns b) (hb : Proper d t b) :
    performing t b = ((operationOf t).toList : Multiset (Operation O K)) := by
  cases b with
  | ended x =>
    have ht : t = taskOf x := hb
    simp [ht,performing,operationOf,taskOf]
  | inside k =>
    have ht : t.work = .callback k := hb
    simp [performing,operationOf,ht]
  | _ => cases h

theorem returns_invoking (h : Returns b) (hb : Proper d t b) :
    invoking t b = ((completionOf t).toList : Multiset (Completion K)) := by
  cases b with
  | ended x =>
    have ht : t = taskOf x := hb
    simp [ht,invoking,completionOf,taskOf]
  | inside k =>
    have ht : t.work = .callback k := hb
    simp [invoking,completionOf,ht]
  | _ => cases h

theorem returns_owed (h : Returns b) : owed t b = 0 := by
  cases b with
  | ended x => rfl
  | inside k => rfl
  | _ => cases h

theorem performing_le (hb : Proper d t b) :
    performing t b ≤ ((operationOf t).toList : Multiset (Operation O K)) := by
  have hle : ∀ x : Operation O K, t = taskOf x →
      ({x} : Multiset (Operation O K)) ≤ ((operationOf t).toList : Multiset _) := by
    rintro x rfl
    simp [operationOf,taskOf]
  cases b with
  | returned x o => exact hle x hb.1
  | openFailed x m => exact hle x hb.1
  | ended x => exact hle x hb
  | _ => exact Multiset.zero_le _

theorem invoking_le (hb : Proper d t b) :
    invoking t b ≤ ((completionOf t).toList : Multiset (Completion K)) := by
  cases b with
  | inside k =>
    have ht : t.work = .callback k := hb
    simp [invoking,completionOf,ht]
  | _ => exact Multiset.zero_le _

variable [DecidableEq O] {E : Engine} {behaves : Behaviour O}

theorem act_performing (h : Act E behaves b d b' d') :
    performedOps d' + performing t b = performedOps d + performing t b' := by
  cases h with
  | callReturns x o d => simp [performedOps,performing,← Multiset.coe_add]
  | _ => rfl

theorem act_owed (h : Act E behaves b d b' d') :
    performedTickets d' + owed t b = performedTickets d + owed t b' := by
  cases h with
  | callReturns x o d => simp [performedTickets,performedOps,owed,← Multiset.coe_add]
  | _ => rfl

theorem act_invoking (h : Act E behaves b d b' d') :
    (d'.invoked : Multiset (Completion K)) + invoking t b = d.invoked + invoking t b' := by
  cases h with
  | invoke k d => simp [invoking,← Multiset.coe_add]
  | _ => rfl

end Actions

section Totals

variable [DecidableEq O] {m n : ℕ} {E : Engine} {R : Residue} {behaves : Behaviour O}
  {objects : O → Object} {calls : History} {c : AsyncState m n O K}
  {ok : Guard (Thread m n) (Shared m n (Work O K) (Data O K)) (Point (Work O K) (Body O K))}
  (hok : ∀ {c i d}, ok c i d → Submits c i d)

include hok

theorem performed_account (hc : Reach (asyncPool E R behaves m n objects calls).lts ok c) :
    performedOps c.shared.data =
      operations c.shared.finished + ∑ i, held performing (c.pc i) := by
  have haccount := account_finished (C := asyncCalls E R behaves)
    (fun s t b => Proper s.data t b) performedOps performing
    (fun t => ((operationOf t).toList : Multiset _)) (fun hc i => (told hok hc i).proper) rfl
    called_performing (fun _ h => act_performing h) (fun _ h => posts_performing h)
    (fun hb h => returns_performing h hb) hc
  rw [haccount,parts_filterMap]
  rfl

theorem performed_le (hc : Reach (asyncPool E R behaves m n objects calls).lts ok c) :
    performedOps c.shared.data ≤ operations c.shared.started := by
  have haccount := performed_account hok hc
  rw [operations,← parts_filterMap] at haccount ⊢
  exact account_le (fun s t b => Proper s.data t b) performedOps performing _ haccount
    (fun i => (told hok hc i).proper) (fun hb => performing_le hb) hc

theorem posted_account (hc : Reach (asyncPool E R behaves m n objects calls).lts ok c) :
    performedTickets c.shared.data = ((completions c.shared.pushed).map Completion.op : List ℕ) +
      ∑ i, (held owed (c.pc i) + due completes (c.pc i)) := by
  have haccount := account_pushed (C := asyncCalls E R behaves)
    (fun s t b => Proper s.data t b) performedTickets owed completes
    (fun hc i => (told hok hc i).proper) rfl called_owed (fun _ h => act_owed h)
    (fun _ h => posts_owed h) (fun _ h => returns_owed h) (fun hrun hi hlock => ?_) hc
  · rw [haccount,parts_completes]
  · obtain ⟨x,rfl⟩ := hok hrun _ _ hi hlock
    rfl

theorem invoked_account (hc : Reach (asyncPool E R behaves m n objects calls).lts ok c) :
    (c.shared.data.invoked : Multiset (Completion K)) =
      completions c.shared.finished + ∑ i, held invoking (c.pc i) := by
  have haccount := account_finished (C := asyncCalls E R behaves)
    (fun s t b => Proper s.data t b) (fun d => (d.invoked : Multiset _)) invoking
    (fun t => ((completionOf t).toList : Multiset _)) (fun hc i => (told hok hc i).proper) rfl
    called_invoking (fun _ h => act_invoking h) (fun _ h => posts_invoking h)
    (fun hb h => returns_invoking h hb) hc
  rw [haccount,parts_filterMap]
  rfl

theorem invoked_le (hc : Reach (asyncPool E R behaves m n objects calls).lts ok c) :
    (c.shared.data.invoked : Multiset (Completion K)) ≤ completions c.shared.started := by
  have haccount := invoked_account hok hc
  rw [completions,← parts_filterMap] at haccount ⊢
  exact account_le (fun s t b => Proper s.data t b) (fun d => (d.invoked : Multiset _)) invoking _
    haccount (fun i => (told hok hc i).proper) (fun hb => invoking_le hb) hc

end Totals

end Accounts

/-- How often the database call of the operation with ticket `op` has been made to its end. -/
def timesPerformed {m n : ℕ} (c : AsyncState m n O K) (op : ℕ) : ℕ :=
  (c.shared.data.performed.map fun y => y.1.ticket).count op

def timesInvoked {m n : ℕ} (c : AsyncState m n O K) (op : ℕ) : ℕ :=
  (c.shared.data.invoked.map Completion.op).count op

theorem operations_tickets (tasks : List (SqlThread.Task (Work O K))) :
    ((operations tasks).map Operation.ticket).Sublist (tasks.map Task.ticket) := by
  induction tasks with
  | nil => exact .slnil
  | cons t tasks ih =>
    obtain ⟨i,work⟩ := t
    cases work with
    | operation s => exact ih.cons_cons i
    | callback k => exact ih.cons i

section Once

variable [DecidableEq O] {m n : ℕ} {E : Engine} {R : Residue} {behaves : Behaviour O}
  {objects : O → Object} {calls : History} {c : AsyncState m n O K}
  {ok : Guard (Thread m n) (Shared m n (Work O K) (Data O K)) (Point (Work O K) (Body O K))}
  (hok : ∀ {c i d}, ok c i d → Submits c i d)

include hok

theorem performedTickets_nodup (hc : Reach (asyncPool E R behaves m n objects calls).lts ok c) :
    (c.shared.data.performed.map fun y => y.1.ticket).Nodup := by
  have hle := Multiset.map_le_map (f := Operation.ticket) (performed_le hok hc)
  have hstarted : ((operations c.shared.started).map Operation.ticket).Nodup :=
    (started_tickets_nodup hc).sublist (operations_tickets _)
  have hnodup := Multiset.nodup_of_le hle (by simpa using hstarted)
  simpa [performedOps,Function.comp_def] using hnodup

theorem submitted_of_performed (hc : Reach (asyncPool E R behaves m n objects calls).lts ok c)
    {y : Operation O K × Outcome} (hy : y ∈ c.shared.data.performed) :
    y.1 ∈ operations c.shared.pushed := by
  have hmem : y.1 ∈ performedOps c.shared.data := by
    simpa [performedOps] using ⟨y.2,hy⟩
  have hstarted := Multiset.mem_of_le (performed_le hok hc) hmem
  have hsub := (started_le_pushed hc).sublist.filterMap operationOf
  exact hsub.subset (Multiset.mem_coe.mp hstarted)

theorem started_of_invoked (hc : Reach (asyncPool E R behaves m n objects calls).lts ok c)
    {k : Completion K} (hk : k ∈ c.shared.data.invoked) : k ∈ completions c.shared.started := by
  have hmem := Multiset.mem_of_le (invoked_le hok hc) (Multiset.mem_coe.mpr hk)
  simpa using hmem

theorem truthful_of_posted (hc : Reach (asyncPool E R behaves m n objects calls).lts ok c)
    {k : Completion K} (hk : k ∈ completions c.shared.pushed) : Truthful c.shared.data k := by
  obtain ⟨t,ht,htk⟩ := List.mem_filterMap.mp hk
  have hwork : t.work = .callback k := by
    obtain ⟨i,work⟩ := t
    cases work <;> simp_all [completionOf]
  exact (told hok hc .destroyer).pushed t ht k hwork

theorem timesInvoked_le (hc : Reach (asyncPool E R behaves m n objects calls).lts ok c) (op : ℕ) :
    timesInvoked c op ≤ timesPerformed c op := by
  have hstarted := (started_le_pushed hc).sublist.filterMap completionOf
  have hinvoked : (c.shared.data.invoked : Multiset (Completion K)) ≤
      completions c.shared.pushed :=
    (invoked_le hok hc).trans (Multiset.coe_le.mpr hstarted.subperm)
  have hposted : (((completions c.shared.pushed).map Completion.op : List ℕ) : Multiset ℕ) ≤
      performedTickets c.shared.data := by
    rw [posted_account hok hc]
    exact Multiset.le_add_right _ _
  have hle := (Multiset.map_le_map (f := Completion.op) hinvoked).trans (by simpa using hposted)
  simpa [timesInvoked,timesPerformed,performedTickets,performedOps,Function.comp_def]
    using Multiset.count_le_of_le op hle

section Drained

variable (hc : Reach (asyncPool E R behaves m n objects calls).lts ok c)
  (hempty : c.shared.tasks = []) (hidle : ∀ i, current (c.pc i) = 0)

include hc hempty hidle

theorem performed_of_drained : performedOps c.shared.data = operations c.shared.pushed := by
  have hperm := (finished_of_drained hc hempty hidle).filterMap operationOf
  have hheld : ∑ i, held performing (c.pc i) = 0 :=
    Finset.sum_eq_zero fun i _ => held_of_idle (hidle i)
  rw [performed_account hok hc,hheld,add_zero]
  exact Multiset.coe_eq_coe.mpr hperm

theorem invoked_of_drained :
    (c.shared.data.invoked : Multiset (Completion K)) = completions c.shared.pushed := by
  have hperm := (finished_of_drained hc hempty hidle).filterMap completionOf
  have hheld : ∑ i, held invoking (c.pc i) = 0 :=
    Finset.sum_eq_zero fun i _ => held_of_idle (hidle i)
  rw [invoked_account hok hc,hheld,add_zero]
  exact Multiset.coe_eq_coe.mpr hperm

theorem tickets_of_drained (hposts : PostsReturned c) :
    performedTickets c.shared.data = (c.shared.data.invoked.map Completion.op : List ℕ) := by
  have hnone : ∑ i, (held owed (c.pc i) + due completes (c.pc i)) = 0 :=
    Finset.sum_eq_zero fun i _ => by
      rw [held_of_idle (hidle i),due_of_returned (hposts i),add_zero]
  have hinvoked := congrArg (Multiset.map Completion.op) (invoked_of_drained hok hc hempty hidle)
  rw [posted_account hok hc,hnone,add_zero]
  simpa using hinvoked.symm

/-- With nothing queued, running or under way every operation has its callback. -/
theorem completed_of_drained (hposts : PostsReturned c) {x : Operation O K}
    (hx : x ∈ operations c.shared.pushed) :
    timesPerformed c x.ticket = 1 ∧ timesInvoked c x.ticket = 1 ∧
      ∃ o k, (x,o) ∈ c.shared.data.performed ∧ k ∈ c.shared.data.invoked ∧ k.op = x.ticket ∧
        k.token = x.token ∧ Carries o k.args := by
  have hnodup := performedTickets_nodup hok hc
  obtain ⟨o,ho⟩ : ∃ o, (x,o) ∈ c.shared.data.performed := by
    have hmem : x ∈ performedOps c.shared.data := by
      rw [performed_of_drained hok hc hempty hidle]
      exact Multiset.mem_coe.mpr hx
    simpa [performedOps] using hmem
  have hticket : x.ticket ∈ c.shared.data.performed.map fun y => y.1.ticket :=
    List.mem_map.mpr ⟨_,ho,rfl⟩
  have hperformed : timesPerformed c x.ticket = 1 := List.count_eq_one_of_mem hnodup hticket
  have hinvoked : timesInvoked c x.ticket = timesPerformed c x.ticket := by
    have htickets := tickets_of_drained hok hc hempty hidle hposts
    have hcount := congrArg (Multiset.count x.ticket) htickets
    simpa [performedTickets,performedOps,timesInvoked,timesPerformed,Function.comp_def]
      using hcount.symm
  refine ⟨hperformed,hinvoked.trans hperformed,?_⟩
  obtain ⟨k,hk,hop⟩ : ∃ k ∈ c.shared.data.invoked, k.op = x.ticket := by
    have hpos : 0 < timesInvoked c x.ticket := by omega
    simpa using List.count_pos_iff.mp hpos
  have hposted : k ∈ completions c.shared.pushed := by
    rw [← Multiset.mem_coe,← invoked_of_drained hok hc hempty hidle]
    exact hk
  obtain ⟨y,o',hy,hyk,htoken,hcarries⟩ := truthful_of_posted hok hc hposted
  have hsame : (y,o') = (x,o) :=
    List.inj_on_of_nodup_map hnodup hy ho (hyk.symm.trans hop)
  obtain ⟨rfl,rfl⟩ := Prod.mk.inj hsame
  exact ⟨_,k,ho,hk,hop,htoken,hcarries⟩

end Drained

end Once

/-- Submissions from outside are complete before `~sql_thread` starts. -/
def SubmitsBeforeShutdown {m n : ℕ} : Guard (Thread m n) (Shared m n (Work O K) (Data O K))
    (Point (Work O K) (Body O K)) := fun c i d => PostsBeforeShutdown c i d ∧ Submits c i d

theorem completed_of_exited [DecidableEq O] {E : Engine} {R : Residue} {behaves : Behaviour O}
    {m n : ℕ} {objects : O → Object} {calls : History} {c : AsyncState m n O K} (hn : 0 < n)
    (hc : Reach (asyncPool E R behaves m n objects calls).lts SubmitsBeforeShutdown c)
    (hexit : ∀ w : Fin n, c.pc (.worker w) = .exited) :
    PostsReturned c ∧ ∀ x ∈ operations c.shared.pushed,
      timesPerformed c x.ticket = 1 ∧ timesInvoked c x.ticket = 1 ∧
      ∃ o k, (x,o) ∈ c.shared.data.performed ∧ k ∈ c.shared.data.invoked ∧ k.op = x.ticket ∧
        k.token = x.token ∧ Carries o k.args := by
  have hposts : Reach (asyncPool E R behaves m n objects calls).lts PostsBeforeShutdown c :=
    hc.mono fun _ _ _ h => h.1
  have hreturned := postsReturned_of_exited hn hposts hexit
  have hidle := current_of_exited hc hexit
  have hempty := tasks_of_exited hn hposts hexit
  have hok : ∀ {c : AsyncState m n O K} {i d}, SubmitsBeforeShutdown c i d → Submits c i d :=
    fun h => h.2
  exact ⟨hreturned,fun x hx => completed_of_drained hok hc hempty hidle hreturned hx⟩

/-- Callbacks start only after their own operation's database call has returned and are never
invoked twice, and once the workers have exited every operation has been performed once and its
own callback invoked once with what the call gave. -/
theorem async_completes_once [DecidableEq O] (E : Engine) (R : Residue) (behaves : Behaviour O)
    (m n : ℕ) (objects : O → Object) (calls : History) (hn : 0 < n) (c : AsyncState m n O K)
    (hc : Reach (asyncPool E R behaves m n objects calls).lts SubmitsBeforeShutdown c) :
    (∀ y ∈ c.shared.data.performed, y.1 ∈ operations c.shared.pushed) ∧
    (∀ k ∈ completions c.shared.pushed, Truthful c.shared.data k) ∧
    (∀ k ∈ c.shared.data.invoked, k ∈ completions c.shared.started) ∧
    (∀ op, timesPerformed c op ≤ 1 ∧ timesInvoked c op ≤ timesPerformed c op) ∧
    ((∀ w : Fin n, c.pc (.worker w) = .exited) → PostsReturned c ∧
      ∀ x ∈ operations c.shared.pushed,
        timesPerformed c x.ticket = 1 ∧ timesInvoked c x.ticket = 1 ∧
        ∃ o k, (x,o) ∈ c.shared.data.performed ∧ k ∈ c.shared.data.invoked ∧ k.op = x.ticket ∧
          k.token = x.token ∧ Carries o k.args) := by
  have hok : ∀ {c : AsyncState m n O K} {i d}, SubmitsBeforeShutdown c i d → Submits c i d :=
    fun h => h.2
  refine ⟨fun y hy => submitted_of_performed hok hc hy,fun k hk => truthful_of_posted hok hc hk,
    fun k hk => started_of_invoked hok hc hk,fun op => ⟨?_,timesInvoked_le hok hc op⟩,
    completed_of_exited hn hc⟩
  exact List.nodup_iff_count_le_one.mp (performedTickets_nodup hok hc) op

section Alone

variable [DecidableEq O] {m n : ℕ} {E : Engine} {R : Residue} {behaves : Behaviour O}
  {objects : O → Object} {calls : History}

/-- A worker by itself goes through a database call as the synchronous function does. -/
theorem ticks_alone (w : Fin n) (s : Shared m n (Work O K) (Data O K))
    (t : SqlThread.Task (Work O K)) (x : Operation O K) {p p' : CallPc} {db : Db}
    (h : Ticks E x.call (⟨s.data.objects x.self,s.data.calls⟩,p) (db,p')) :
    Alone (asyncPool E R behaves m n objects calls) (.worker w) (s,.running t (.calling x p))
      ({ s with data := s.data.after x.self db },.running t (.calling x p')) := by
  generalize hb : (db,p') = b at h
  induction h generalizing db p' with
  | refl =>
    cases hb
    simpa [Data.after] using Relation.ReflTransGen.refl
  | @tail a b _ htick ih =>
    subst hb
    obtain ⟨d,q⟩ := a
    have hstep : callStep E x.call ⟨(s.data.after x.self d).objects x.self,d.calls⟩ q =
        some (db,p') := by simpa [Data.after,Tick] using htick
    have hnext := alone_next (ih rfl)
      (Step.act (C := asyncCalls E R behaves) w _ t _ _ _ (Act.api x q p' _ db hstep))
    simpa [Data.after] using hnext

end Alone

section Sample

def openOnce : Operation Unit Unit := ⟨⟨(),.openSqliteDatabase "test.db",()⟩,0⟩

def openOnceCallback : Completion Unit := ⟨0,(),.opened (openPair true "")⟩

abbrev smallCalls : Calls (Work Unit Unit) (Body Unit Unit) (Data Unit Unit) :=
  asyncCalls sampleEngine ⟨id,id⟩ fun _ _ => False

abbrev smallPool : Threads (Thread 1 1) (Shared 1 1 (Work Unit Unit) (Data Unit Unit))
    (Point (Work Unit Unit) (Body Unit Unit)) :=
  pool smallCalls 1 1 (fresh (fun _ => {}) [.config])

theorem openOnce_alone (s : Shared 1 1 (Work Unit Unit) (Data Unit Unit))
    (hdata : s.data = fresh (fun _ => {}) [.config]) (hfree : s.taskMutex = none)
    (hnobody : s.waiters = ∅) : ∃ z d,
      Alone smallPool (.worker 0) (s,.running (taskOf openOnce) (.entered openOnce))
        ({ s with
            runningCount := z, data := d
            tasks := s.tasks ++ [⟨s.pushed.length,.callback openOnceCallback⟩]
            pushed := s.pushed ++ [⟨s.pushed.length,.callback openOnceCallback⟩] },
          .running (taskOf openOnce) (.ended openOnce)) := by
  have henter := alone_next (P := smallPool) .refl
    (Step.act 0 s (taskOf openOnce) _ _ _ (Act.enter openOnce s.data))
  have hrun : runCall sampleEngine 0 ⟨{},[.config]⟩ openOnce.call =
      some (.opened true,(Db.openV2 sampleEngine ⟨{},[.config]⟩ "test.db").2) := rfl
  have hticks := ticks_of_runCall hrun
  have hcall : Alone smallPool (.worker 0) _ _ := ticks_alone 0
    { s with data := { s.data with begun := s.data.begun ++ [openOnce] } } (taskOf openOnce)
    openOnce (by simpa [hdata,fresh] using hticks)
  have hreturns := alone_next (henter.trans hcall)
    (Step.act 0 _ (taskOf openOnce) _ _ _ (Act.callReturns openOnce (.opened true) _))
  have hpost := fun d => repost_alone smallCalls (fresh (fun _ => {}) [.config]) 0
    { s with data := d } (taskOf openOnce) (Posts.opened openOnce) hfree hnobody
  exact ⟨_,_,hreturns.trans (hpost _)⟩

theorem openOnceCallback_alone {s : Shared 1 1 (Work Unit Unit) (Data Unit Unit)}
    {a : Shared 1 1 (Work Unit Unit) (Data Unit Unit) × Point (Work Unit Unit) (Body Unit Unit)}
    (h : Alone smallPool (.worker 0) a (s,.lockTasks)) (hstop : s.stop = true)
    (htask : s.taskMutex = none) (hcount : s.countMutex = none)
    (hfront : s.tasks = [⟨1,.callback openOnceCallback⟩]) :
    ∃ s', Alone smallPool (.worker 0) a (s',.exited) ∧ s'.pushed = s.pushed := by
  have hinvoke := alone_next (P := smallPool) .refl
    (Step.act 0 { s with
        tasks := [], started := s.started ++ [⟨1,.callback openOnceCallback⟩] }
      ⟨1,.callback openOnceCallback⟩ _ _ _ (Act.invoke openOnceCallback s.data))
  obtain ⟨z,W,hserve⟩ := serve_body_alone smallCalls (fresh (fun _ => {}) [.config]) 0 hstop htask
    hfront hinvoke trivial hcount
  obtain ⟨s',hdrain,hpushed⟩ := drain_alone smallCalls (fresh (fun _ => {}) [.config]) 0 { s with
      tasks := [], started := s.started ++ [⟨1,.callback openOnceCallback⟩]
      finished := s.finished ++ [⟨1,.callback openOnceCallback⟩], runningCount := z, waiters := W
      data := { s.data with invoked := s.data.invoked ++ [openOnceCallback] } }
    hstop htask hcount (by simp)
  exact ⟨s',(h.trans hserve).trans hdrain,hpushed⟩

theorem openOnce_drained : ∃ c : AsyncState 1 1 Unit Unit,
    Reach smallPool.lts SubmitsBeforeShutdown c ∧ (∀ w : Fin 1, c.pc (.worker w) = .exited) ∧
      c.shared.pushed = [taskOf openOnce,⟨1,.callback openOnceCallback⟩] := by
  let start : AsyncState 1 1 Unit Unit := ⟨startShared (fresh (fun _ => {}) [.config]),startPoint⟩
  have hstart : Reach smallPool.lts SubmitsBeforeShutdown start := .init ⟨rfl,rfl⟩
  have hsubmit := post_reach hstart 0 (.operation openOnce.toSubmission) rfl rfl rfl
    fun d e hframe hlock => ⟨⟨by simp,fun _ _ _ => hframe .destroyer (by decide)⟩,?_⟩
  · have hstore := reach_move hsubmit .destroyer (Step.storeStop (C := smallCalls) _)
      ⟨⟨fun _ _ j => by rw [Subsingleton.elim j 0]; exact Config.move_self _ _ _ _,by simp⟩,
        by simp [Submits]⟩
    set stopped := Config.move (Config.move start _ _ _) _ _ _ with hstopped
    obtain ⟨z,d,hopen⟩ := openOnce_alone { stopped.shared with
      tasks := [], started := [taskOf openOnce] } rfl rfl rfl
    obtain ⟨z',W,hserve⟩ := serve_body_alone smallCalls (fresh (fun _ => {}) [.config]) 0
      (s := stopped.shared) rfl rfl rfl hopen trivial rfl
    obtain ⟨s',hdrain,hpushed⟩ := openOnceCallback_alone hserve rfl rfl rfl rfl
    have hrun : Continues smallPool.lts SubmitsBeforeShutdown _ _ :=
      continues_alone hdrain stopped
        fun d e _ => ⟨⟨by simp,by simp⟩,by simp [Submits]⟩
    have hback : stopped.move (.worker 0) stopped.shared .lockTasks = stopped :=
      Config.move_pc stopped (.worker 0) stopped.shared
    rw [hback] at hrun
    refine ⟨_,hstore.continues hrun,fun w => ?_,hpushed⟩
    rw [Subsingleton.elim w 0]
    exact Config.move_self _ _ _ _
  · rintro j y ⟨⟩ hy
    exact ⟨_,hlock y hy⟩

theorem async_completes_once_open : ∃ c : AsyncState 1 1 Unit Unit,
    timesPerformed c 0 = 1 ∧ timesInvoked c 0 = 1 ∧
      ∃ o k, (openOnce,o) ∈ c.shared.data.performed ∧ k ∈ c.shared.data.invoked ∧ k.op = 0 ∧
        k.token = openOnce.token ∧ Carries o k.args := by
  obtain ⟨c,hc,hexit,hpushed⟩ := openOnce_drained
  obtain ⟨-,-,-,-,hall⟩ := async_completes_once sampleEngine ⟨id,id⟩ (fun _ _ => False) 1 1
    (fun _ => {}) [.config] (by decide) c hc
  obtain ⟨-,honce⟩ := hall hexit
  exact ⟨c,honce openOnce (by rw [hpushed]; simp [operations,operationOf,taskOf])⟩

end Sample

end AsyncPool
end AlephSql
