import AlephSql.OneByOne
import AlephSql.Parameters

/-! What a callback may count on in its arguments, whatever the other workers have done to the
object meanwhile. -/
namespace AlephSql
namespace AsyncPool

open Transition Interleave Sqlite Database CallSteps Delivery SqlThread ResultRows Parameters

/-- A row of `count` cells, none of which holds a zero character. -/
def RowFits (count : ℕ) (row : List String) : Prop :=
  row.length = count ∧ ∀ text ∈ row, ZeroFree text

/-- A record tells one story: success without an error, or an error without data, its code one
that the engine's code was translated to; a table of rows of one length, or a number of changed
rows. -/
structure RecordFits (r : ExecuteResult) : Prop where
  success : r.sqlite3ExecuteStatus = true →
    r.sqlite3ExecuteError = "" ∧ r.sqlite3ExecuteErrorCode = SQL_SUCCESS
  failure : r.sqlite3ExecuteStatus = false → r.sqlite3ResultRow = [] ∧ r.sqlite3AffectedRow = 0
  code : ∃ ret, r.sqlite3ExecuteErrorCode = getSqlErrorCode ret
  one : r.sqlite3ResultRow = [] ∨ r.sqlite3AffectedRow = 0
  table : ∃ count, ∀ row ∈ r.sqlite3ResultRow, RowFits count row

/-- The error code and the message agree with the record beside them. -/
structure TripleFits (t : Triple) : Prop where
  record : RecordFits t.executeResult
  success : t.executeResult.sqlite3ExecuteStatus = true →
    t.errorCode = {} ∧ (t.errorMessage = "Execute success" ∨ t.errorMessage = "Execute OK")
  failure : t.executeResult.sqlite3ExecuteStatus = false →
    t.errorCode = makeErrorCode t.executeResult.sqlite3ExecuteErrorCode ∧
      t.errorMessage = t.executeResult.sqlite3ExecuteError

def ArgumentsFit : Arguments → Prop
  | .opened pair => pair = ({},"Open database success") ∨ pair.1 = makeErrorCode SQL_CANTOPEN
  | .executed t => TripleFits t

def OutcomeFits : Outcome → Prop
  | .opened _ => True
  | .executed r => RecordFits r

def RowsFit : CallPc → Prop
  | .selectStep count rows => ∀ row ∈ rows, RowFits count row
  | .columnText count rows remaining _ row =>
    (∀ row ∈ rows, RowFits count row) ∧ remaining ≤ count ∧ RowFits (count-remaining) row
  | .done o => OutcomeFits o
  | _ => True

section Calls

theorem zeroFree_cell (text : Option String) : ZeroFree (cell text) := by
  cases text with
  | none => unfold ZeroFree; decide
  | some s => exact zeroFree_cString s

theorem RowFits.snoc {count : ℕ} {row : List String} (h : RowFits count row)
    (text : Option String) : RowFits (count+1) (row ++ [cell text]) := by
  refine ⟨by simp [h.1],fun s hs => ?_⟩
  rcases List.mem_append.mp hs with hs | hs
  · exact h.2 s hs
  · rw [List.mem_singleton.mp hs]
    exact zeroFree_cell text

theorem recordFits_notOpen : RecordFits notOpen :=
  ⟨nofun,fun _ => ⟨rfl,rfl⟩,⟨SQLITE_OK,rfl⟩,.inl rfl,0,nofun⟩

theorem recordFits_executed (affected : ℤ) : RecordFits (executed affected) :=
  ⟨fun _ => ⟨rfl,rfl⟩,nofun,⟨SQLITE_OK,rfl⟩,.inl rfl,0,nofun⟩

theorem recordFits_failed {r : ExecuteResult} (hstatus : r.sqlite3ExecuteStatus = false)
    (hrows : r.sqlite3ResultRow = []) (haffected : r.sqlite3AffectedRow = 0)
    (hcode : ∃ ret, r.sqlite3ExecuteErrorCode = getSqlErrorCode ret) : RecordFits r where
  success h := by
    rw [hstatus] at h
    cases h
  failure _ := ⟨hrows,haffected⟩
  code := hcode
  one := .inl hrows
  table := ⟨0,by simp [hrows]⟩

theorem recordFits_selected {count : ℕ} {rows : List (List String)}
    (h : ∀ row ∈ rows, RowFits count row) : RecordFits (selected rows) :=
  ⟨fun _ => ⟨rfl,rfl⟩,nofun,⟨SQLITE_OK,rfl⟩,.inr rfl,count,h⟩

variable {E : Engine} {call : Call} {d d' : Db} {p p' : CallPc}

/-- The number of columns is asked for once: every row gets that many cells. -/
theorem callStep_rowsFit (hp : RowsFit p) (h : callStep E call d p = some (d',p')) :
    RowsFit p' := by
  cases p with
  | start =>
    cases call with
    | openSqliteDatabase name =>
      simp only [callStep] at h
      split at h
      · cases h
        trivial
      · split at h <;> cases h <;> trivial
    | executeSqlite sql args | executeSqliteSelect sql args =>
      simp only [callStep] at h
      split at h <;> cases h
      · exact recordFits_notOpen
      · trivial
  | prepare =>
    cases call with
    | openSqliteDatabase name => cases h
    | executeSqlite sql args | executeSqliteSelect sql args =>
      simp only [callStep] at h
      split at h <;> cases h <;> trivial
  | compileErrmsg ret =>
    cases call with
    | openSqliteDatabase name => cases h
    | executeSqlite sql args =>
      cases h
      exact recordFits_failed rfl rfl rfl ⟨SQLITE_OK,rfl⟩
    | executeSqliteSelect sql args =>
      cases h
      exact recordFits_failed rfl rfl rfl ⟨ret,rfl⟩
  | bind index rest =>
    cases rest with
    | nil => cases call <;> cases h <;> trivial
    | cons q rest =>
      cases h
      trivial
  | executeStep =>
    simp only [callStep] at h
    split at h <;> cases h <;> trivial
  | changes =>
    cases h
    exact recordFits_executed _
  | stepErrmsg ret =>
    cases h
    exact recordFits_failed rfl rfl rfl ⟨ret,rfl⟩
  | columnCount =>
    cases h
    exact fun row hrow => by cases hrow
  | selectStep count rows =>
    simp only [callStep] at h
    split at h <;> cases h
    · exact ⟨hp,le_rfl,by simp,by simp⟩
    · exact recordFits_selected hp
  | columnText count rows remaining index row =>
    obtain ⟨hrows,hle,hrow⟩ := hp
    cases remaining with
    | zero =>
      cases h
      intro row' hrow'
      rcases List.mem_append.mp hrow' with hold | hnew
      · exact hrows row' hold
      · rw [List.mem_singleton.mp hnew]
        exact hrow
    | succ k =>
      cases h
      refine ⟨hrows,by omega,?_⟩
      have hshift : count-k = count-(k+1)+1 := by omega
      rw [hshift]
      exact hrow.snoc _
  | openErrmsg =>
    cases h
    trivial
  | done o => cases h

theorem tripleFits {R : Residue} {r : ExecuteResult} (hr : RecordFits r) (call : Call) :
    TripleFits (tripleOf R call r) := by
  have hrecord := tripleOf_executeResult (R := R) (r := r) call
  have hfit : ∀ t : Triple, t.executeResult = r →
      (r.sqlite3ExecuteStatus = true →
        t.errorCode = {} ∧ (t.errorMessage = "Execute success" ∨ t.errorMessage = "Execute OK")) →
      (r.sqlite3ExecuteStatus = false → t.errorCode = makeErrorCode r.sqlite3ExecuteErrorCode ∧
        t.errorMessage = r.sqlite3ExecuteError) → TripleFits t := by
    rintro t rfl hsuccess hfailure
    exact ⟨hr,hsuccess,hfailure⟩
  refine hfit _ hrecord ?_ ?_
  · intro hs
    cases call <;> simp [tripleOf,executeTriple,selectTriple,hs]
  · intro hs
    cases call <;> simp [tripleOf,executeTriple,selectTriple,hs,postNewTask_executeError,
      sqlite3ExecuteResult,Declared.implicitMove]

end Calls

section Run

variable {O K : Type} [DecidableEq O] {m n : ℕ} {E : Engine} {R : Residue}
  {behaves : Behaviour O} {objects : O → Object} {calls : History}

def WorkFits : Work O K → Prop
  | .operation _ => True
  | .callback k => ArgumentsFit k.args

def BodyFits : Body O K → Prop
  | .calling _ p => RowsFit p
  | .returned _ o => OutcomeFits o
  | .deliver k | .inside k => ArgumentsFit k.args
  | _ => True

/-- All callbacks fit: the queued, the one in the hands of this thread and the invoked ones. -/
structure Fitting (s : Shared m n (Work O K) (Data O K)) (p : Point (Work O K) (Body O K)) :
    Prop where
  queued : ∀ t ∈ s.tasks, WorkFits t.work
  invoked : ∀ k ∈ s.data.invoked, ArgumentsFit k.args
  pending : ∀ w, pending p = some w → WorkFits w
  taken : ∀ t, p = .taken t → WorkFits t.work
  called : ∀ t b, callAt p = some (t,b) → BodyFits b

variable {b b' : Body O K} {d d' : Data O K}

theorem act_fits (h : Act E behaves b d b' d') (hb : BodyFits b)
    (hd : ∀ k ∈ d.invoked, ArgumentsFit k.args) :
    BodyFits b' ∧ ∀ k ∈ d'.invoked, ArgumentsFit k.args := by
  cases h with
  | enter x d => exact ⟨trivial,hd⟩
  | api x p p' d db h => exact ⟨callStep_rowsFit hb h,hd⟩
  | callReturns x o d => exact ⟨hb,hd⟩
  | openErrmsg x d => exact ⟨trivial,hd⟩
  | invoke k d =>
    refine ⟨hb,fun k' hk' => ?_⟩
    rcases List.mem_append.mp hk' with hold | hnew
    · exact hd k' hold
    · rw [List.mem_singleton.mp hnew]
      exact hb
  | callback k d f hist h => exact ⟨hb,hd⟩

omit [DecidableEq O] in
theorem posts_fit {w : Work O K} (h : Posts R b w b') (hb : BodyFits b) :
    WorkFits w ∧ BodyFits b' := by
  cases h with
  | opened x => exact ⟨.inl rfl,trivial⟩
  | openFailed x msg => exact ⟨.inr rfl,trivial⟩
  | executed x r => exact ⟨tripleFits hb x.call,trivial⟩
  | submit k s => exact ⟨trivial,hb⟩

omit [DecidableEq O] in
theorem called_fits {t : SqlThread.Task (Work O K)} (h : WorkFits t.work) :
    BodyFits (AsyncPool.called t) := by
  obtain ⟨i,work⟩ := t
  cases work with
  | operation s => trivial
  | callback k => exact h

omit [DecidableEq O] in
theorem Fitting.idle {s : Shared m n (Work O K) (Data O K)} {p : Point (Work O K) (Body O K)}
    (hqueued : ∀ t ∈ s.tasks, WorkFits t.work)
    (hinvoked : ∀ k ∈ s.data.invoked, ArgumentsFit k.args) (hpending : SqlThread.pending p = none)
    (htaken : ∀ t, p ≠ .taken t) (hcalled : callAt p = none) : Fitting s p where
  queued := hqueued
  invoked := hinvoked
  pending w hw := by
    rw [hpending] at hw
    cases hw
  taken t ht := absurd ht (htaken t)
  called t b hb := by
    rw [hcalled] at hb
    cases hb

omit [DecidableEq O] in
theorem Fitting.busy {s : Shared m n (Work O K) (Data O K)} {p : Point (Work O K) (Body O K)}
    (hqueued : ∀ t ∈ s.tasks, WorkFits t.work)
    (hinvoked : ∀ k ∈ s.data.invoked, ArgumentsFit k.args)
    (hpending : ∀ w, SqlThread.pending p = some w → WorkFits w) (htaken : ∀ t, p ≠ .taken t)
    (hcalled : ∀ t b, callAt p = some (t,b) → BodyFits b) : Fitting s p :=
  ⟨hqueued,hinvoked,hpending,fun t ht => absurd ht (htaken t),hcalled⟩

theorem step_fits {i : Thread m n} {s s' : Shared m n (Work O K) (Data O K)}
    {p p' : Point (Work O K) (Body O K)} (h : Step (asyncCalls E R behaves) i s p s' p')
    (hp : Fitting s p) (hout : ∀ j x, i = .poster j → p' = .posting none (.lock x) →
      ∃ s, x = .operation s) : Fitting s' p' := by
  cases h with
  | call i s x =>
    obtain ⟨y,rfl⟩ := hout i x rfl rfl
    refine .busy hp.queued hp.invoked ?_ (by simp) (by simp [callAt])
    rintro w ⟨⟩
    trivial
  | act w s t b b' d' h =>
    obtain ⟨hbody,hinvoked⟩ := act_fits h (hp.called t b rfl) hp.invoked
    refine .busy hp.queued hinvoked (by simp [pending]) (by simp) ?_
    rintro u b'' ⟨⟩
    exact hbody
  | taskPosts w s t b x b' h =>
    obtain ⟨hwork,hbody⟩ := posts_fit h (hp.called t b rfl)
    refine .busy hp.queued hp.invoked ?_ (by simp) ?_
    · rintro y ⟨⟩
      exact hwork
    · rintro u b'' ⟨⟩
      exact hbody
  | postPush i s k x =>
    refine .busy (fun t ht => ?_) hp.invoked (by simp [pending]) (by simp) hp.called
    rcases List.mem_append.mp ht with hold | hnew
    · exact hp.queued t hold
    · rw [List.mem_singleton.mp hnew]
      exact hp.pending x rfl
  | take w s t rest front =>
    refine ⟨fun u hu => hp.queued u ?_,hp.invoked,by simp [pending],?_,by simp [callAt]⟩
    · rw [front]
      exact List.mem_cons_of_mem t hu
    · rintro u ⟨⟩
      exact hp.queued t (by rw [front]; exact List.mem_cons_self)
  | taken w s t =>
    refine .busy hp.queued hp.invoked (by simp [pending]) (by simp) ?_
    rintro u b ⟨⟩
    exact called_fits (hp.taken t rfl)
  | returnToTask i s t b =>
    exact .busy hp.queued hp.invoked (by simp [pending]) (by simp) hp.called
  | postLock i s k | postCount i s k | postUnlock i s k | postNotifyNobody i s k
  | postNotifyOne i s k => exact .busy hp.queued hp.invoked hp.pending (by simp) hp.called
  | _ => exact .idle hp.queued hp.invoked rfl (by simp) rfl

theorem fitting {c : AsyncState m n O K}
    (hc : Reach (asyncPool E R behaves m n objects calls).lts Submits c) (i : Thread m n) :
    Fitting c.shared (c.pc i) := by
  refine local_invariant (Q := fun _ s p => Fitting s p) ?_ ?_ ?_ hc i
  · rintro s pc ⟨rfl,rfl⟩ i
    have hnone : ∀ k ∈ (fresh objects calls : Data O K).invoked, ArgumentsFit k.args := by
      simp [fresh]
    cases i <;> exact .idle (by simp [startShared]) hnone rfl (by simp [startPoint]) rfl
  · intro c d i _ hok h hq
    exact step_fits h (hq i) hok
  · intro c d i j _ _ hok h hq
    have hmoved := step_fits h (hq i) hok
    exact ⟨hmoved.queued,hmoved.invoked,(hq j).pending,(hq j).taken,(hq j).called⟩

end Run

section Sample

def selectUnopened : Operation Unit Unit := ⟨⟨(),.executeSqliteSelect "SELECT 1" [],()⟩,0⟩

def selectUnopenedCallback : Completion Unit :=
  ⟨0,(),.executed (tripleOf ⟨id,id⟩ selectUnopened.call notOpen)⟩

theorem selectUnopened_invoked : ∃ c : AsyncState 1 1 Unit Unit,
    Reach smallPool.lts Submits c ∧ c.shared.data.invoked = [selectUnopenedCallback] := by
  obtain ⟨c,hbegun⟩ := first_begun sampleEngine ⟨id,id⟩ (fun _ _ => False) (fun _ => {}) [.config]
    selectUnopened.toSubmission
  have htest := reach_next (hbegun.mono fun _ _ _ h => h.1)
    (Step.act 0 _ _ _ _ _ (Act.api selectUnopened _ (.done (.executed notOpen)) _ _ rfl))
    (by simp [Submits])
  have hreturn := reach_next htest (Step.act 0 _ _ _ _ _ (Act.callReturns selectUnopened _ _))
    (by simp [Submits])
  have hposts := reach_next hreturn
    (Step.taskPosts 0 _ _ _ _ _ (Posts.executed (R := ⟨id,id⟩) selectUnopened notOpen))
    (by simp [Submits])
  have hrelock := reach_next hposts (Step.postLock _ _ _ _ rfl) (by simp [Submits])
  have hrecount := reach_next hrelock (Step.postCount _ _ _ _) (by simp [Submits])
  have hrepush := reach_next hrecount (Step.postPush _ _ _ _) (by simp [Submits])
  have hreunlock := reach_next hrepush (Step.postUnlock _ _ _) (by simp [Submits])
  have hnotify := reach_next hreunlock (Step.postNotifyNobody _ _ _ rfl) (by simp [Submits])
  have hback := reach_next hnotify (Step.returnToTask _ _ _ _) (by simp [Submits])
  have hended := reach_next hback (Step.taskReturns 0 _ _ _ trivial) (by simp [Submits])
  have hcountlock := reach_next hended (Step.lockCount 0 _ rfl) (by simp [Submits])
  have hpositive := reach_next hcountlock (Step.positive 0 _ (by decide)) (by simp [Submits])
  have hdecrement := reach_next hpositive (Step.decrement 0 _) (by simp [Submits])
  have hone := reach_next hdecrement (Step.notZero 0 _ (by decide)) (by simp [Submits])
  have hcountunlock := reach_next hone (Step.unlockCount 0 _) (by simp [Submits])
  -- the callback
  have hagain := reach_next hcountunlock (Step.lockTasks 0 _ rfl) (by simp [Submits])
  have hpass' := reach_next hagain (Step.predicateTrue 0 _ rfl) (by simp [Submits])
  have htake' := reach_next hpass' (Step.take 0 _ _ [] rfl) (by simp [Submits])
  have htaken' := reach_next htake' (Step.taken 0 _ _) (by simp [Submits])
  have hinvoke := reach_next htaken' (Step.act 0 _ _ _ _ _ (Act.invoke _ _)) (by simp [Submits])
  exact ⟨_,hinvoke,rfl⟩

end Sample

theorem callback_arguments_fit {O K : Type} [DecidableEq O] (E : Engine) (R : Residue)
    (behaves : Behaviour O) (m n : ℕ) (objects : O → Object) (calls : History)
    (c : AsyncState m n O K)
    (hc : Reach (asyncPool E R behaves m n objects calls).lts Submits c) :
    ∀ k ∈ c.shared.data.invoked, ArgumentsFit k.args :=
  (fitting hc .destroyer).invoked

theorem callback_arguments_fit_unopened : ∃ c : AsyncState 1 1 Unit Unit,
    c.shared.data.invoked = [selectUnopenedCallback] ∧
      ∀ k ∈ c.shared.data.invoked, ArgumentsFit k.args := by
  obtain ⟨c,hc,hinvoked⟩ := selectUnopened_invoked
  exact ⟨c,hinvoked,callback_arguments_fit sampleEngine ⟨id,id⟩ (fun _ _ => False) 1 1 (fun _ => {})
    [.config] c hc⟩

end AsyncPool
end AlephSql
