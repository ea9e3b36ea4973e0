import AlephSql.Delivery

/-! How a failed operation shows. The status, the error text and the error code of a record
are set one by one on every exit, and not all exits set all of them. -/
namespace AlephSql
namespace Failure

open Sqlite Database Delivery

structure Visible (r : ExecuteResult) : Prop where
  error : r.sqlite3ExecuteStatus = false ↔ r.sqlite3ExecuteError ≠ ""
  code : r.sqlite3ExecuteError ≠ "" ↔ r.sqlite3ExecuteErrorCode ≠ SQL_SUCCESS

/-- The record shows a failure as one, and so does the `error_code` of the callback. -/
structure FailureVisible (r : ExecuteResult) (t : Triple) : Prop where
  record : Visible r
  callback : t.errorCode.truthy = true ↔ r.sqlite3ExecuteStatus = false

def prepareRet (E : Engine) (d : Db) (sql : String) : ℤ := (d.prepareV2 E sql).1

def stepRet (E : Engine) (d : Db) (sql : String) (args : List Paramter) : ℤ :=
  ((bindArgs E 1 args (d.prepareV2 E sql).2).step E).1

/-- When `execute_sqlite` makes a failure visible. -/
def ExecuteShows (E : Engine) (d : Db) (sql : String) (args : List Paramter) : Prop :=
  d.self.sqlitePtr ≠ none ∧ prepareRet E d sql = SQLITE_OK ∧
    (stepRet E d sql args = SQLITE_DONE ∨ stepRet E d sql args ∈ mappedCodes)

def SelectShows (E : Engine) (d : Db) (sql : String) : Prop :=
  d.self.sqlitePtr ≠ none ∧
    (prepareRet E d sql = SQLITE_OK ∨ prepareRet E d sql ∈ mappedCodes)

section Exits

theorem visible_of_failed {r : ExecuteResult} (hs : r.sqlite3ExecuteStatus = false)
    (he : r.sqlite3ExecuteError ≠ "") :
    Visible r ↔ r.sqlite3ExecuteErrorCode ≠ SQL_SUCCESS := by
  constructor
  · intro h
    exact h.code.mp he
  · intro h
    exact ⟨by simp [hs,he],by simp [he,h]⟩

theorem visible_of_success {r : ExecuteResult} (hs : r.sqlite3ExecuteStatus = true)
    (he : r.sqlite3ExecuteError = "") (hc : r.sqlite3ExecuteErrorCode = SQL_SUCCESS) :
    Visible r := ⟨by simp [hs,he],by simp [he,hc]⟩

@[simp] theorem not_visible_notOpen : ¬Visible notOpen := by
  rw [visible_of_failed rfl (by decide)]
  simp [notOpen]

@[simp] theorem not_visible_compileFailed {message : String} (h : message ≠ "") :
    ¬Visible (compileFailed message) := by
  rw [visible_of_failed rfl (by simpa [compileFailed] using h)]
  simp [compileFailed]

theorem visible_selectCompileFailed {ret : ℤ} {message : String} (h : message ≠ "") :
    Visible (selectCompileFailed ret message) ↔ ret ∈ mappedCodes := by
  rw [visible_of_failed rfl (by simpa [selectCompileFailed] using h)]
  exact getSqlErrorCode_ne_success ret

theorem visible_stepFailed (ret : ℤ) (message : String) :
    Visible (stepFailed ret message) ↔ ret ∈ mappedCodes := by
  rw [visible_of_failed rfl (by simp [stepFailed])]
  exact getSqlErrorCode_ne_success ret

@[simp] theorem visible_executed (affected : ℤ) : Visible (executed affected) :=
  visible_of_success rfl rfl rfl

@[simp] theorem visible_selected (rows : List (List String)) : Visible (selected rows) :=
  visible_of_success rfl rfl rfl

end Exits

section Operations

variable {E : Engine}

theorem visible_executeSqlite (herr : ∀ h conn, E.errmsg h conn ≠ "") (d : Db) (sql : String)
    (args : List Paramter) :
    Visible (executeSqlite E d sql args).1 ↔ ExecuteShows E d sql args := by
  by_cases hopen : d.self.sqlitePtr = none
  · simp [executeSqlite,ExecuteShows,hopen]
  by_cases hprepare : (d.prepareV2 E sql).1 = SQLITE_OK
  · by_cases hdone : ((bindArgs E 1 args (d.prepareV2 E sql).2).step E).1 = SQLITE_DONE
    · simp [executeSqlite,ExecuteShows,prepareRet,stepRet,hopen,hprepare,hdone]
    · simp [executeSqlite,ExecuteShows,prepareRet,stepRet,hopen,hprepare,hdone,
        visible_stepFailed]
  · have hmessage : ((d.prepareV2 E sql).2.errmsg E).1 ≠ "" := herr _ _
    simp [executeSqlite,ExecuteShows,prepareRet,hopen,hprepare,hmessage]

theorem visible_executeSqliteSelect (herr : ∀ h conn, E.errmsg h conn ≠ "") {fuel : ℕ}
    {d d' : Db} {sql : String} {args : List Paramter} {r : ExecuteResult}
    (h : executeSqliteSelect E fuel d sql args = some (r,d')) :
    Visible r ↔ SelectShows E d sql := by
  by_cases hopen : d.self.sqlitePtr = none
  · simp only [executeSqliteSelect,hopen,if_true,Option.some.injEq,Prod.mk.injEq] at h
    simp [← h.1,SelectShows,hopen]
  by_cases hprepare : (d.prepareV2 E sql).1 = SQLITE_OK
  · simp only [executeSqliteSelect,hopen,hprepare,ne_eq,not_true,if_false] at h
    obtain ⟨fetched,-,hr⟩ := Option.map_eq_some_iff.mp h
    cases hr
    simp [SelectShows,prepareRet,hopen,hprepare]
  · simp only [executeSqliteSelect,hopen,hprepare,ne_eq,not_false_iff,if_true,if_false,
      Option.some.injEq,Prod.mk.injEq] at h
    have hmessage : ((d.prepareV2 E sql).2.errmsg E).1 ≠ "" := herr _ _
    rw [← h.1,visible_selectCompileFailed hmessage]
    simp [SelectShows,prepareRet,hopen,hprepare]

theorem failureVisible_iff {r : ExecuteResult} {t : Triple} (h : Reports r t) :
    FailureVisible r t ↔ Visible r := by
  constructor
  · intro hv
    exact hv.record
  · intro hv
    have hcode : t.errorCode.truthy = true ↔ r.sqlite3ExecuteErrorCode ≠ SQL_SUCCESS := by
      simp [ErrorCode.truthy,h.errorCode,SQL_SUCCESS]
    exact ⟨hv,hcode.trans (hv.code.symm.trans hv.error.symm)⟩

end Operations

/-- A failure shows in all three fields and in the callback's `error_code` exactly on an
opened object whose engine codes the operation translates. -/
theorem failure_shows_iff (E : Engine) (herr : ∀ h conn, E.errmsg h conn ≠ "") (R : Residue)
    (d : Db) (sql : String) (args : List Paramter) :
    (FailureVisible (executeSqlite E d sql args).1 (asyncExecuteSqlite E R d sql args).1 ↔
      ExecuteShows E d sql args) ∧
    (∀ fuel r t d' e, executeSqliteSelect E fuel d sql args = some (r,d') →
      asyncExecuteSqliteSelect E R fuel d sql args = some (t,e) →
      (FailureVisible r t ↔ SelectShows E d sql)) := by
  constructor
  · rw [← visible_executeSqlite herr d sql args]
    exact failureVisible_iff (reports_executeTriple (coherent_executeSqlite d sql args))
  · intro fuel r t d' e hsync hasync
    have ht : t = selectTriple R r := by
      simp only [asyncExecuteSqliteSelect,hsync,Option.map_some,Option.some.injEq,
        Prod.mk.injEq] at hasync
      exact hasync.1.symm
    rw [← visible_executeSqliteSelect herr hsync,ht]
    exact failureVisible_iff (reports_selectTriple (coherent_executeSqliteSelect hsync))

/-- Moves that leave strings and vectors empty. -/
def emptied : Residue := ⟨fun _ => "",fun _ => []⟩

def openedObject : Db := ⟨⟨some 1,none⟩,[.openV2 "test.db" SQLITE_OK (some 1)]⟩

def rejecting : Engine := { sampleEngine with prepareV2 := fun _ _ _ => (SQLITE_ERROR,none) }

theorem failure_shows_iff_opened :
    (FailureVisible (executeSqlite sampleEngine openedObject "DELETE FROM test" []).1
        (asyncExecuteSqlite sampleEngine emptied openedObject "DELETE FROM test" []).1 ↔
      ExecuteShows sampleEngine openedObject "DELETE FROM test" []) ∧
    (FailureVisible (selected []) (selectTriple emptied (selected [])) ↔
      SelectShows sampleEngine openedObject "DELETE FROM test") := by
  have hiff := failure_shows_iff sampleEngine (by simp [sampleEngine]) emptied openedObject
    "DELETE FROM test" []
  exact ⟨hiff.1,hiff.2 1 _ _ _ _ rfl rfl⟩

/-- `execute_sqlite` on an object that was never opened, and on an open one whose engine
rejects the text: the operation has failed, its code and the callback's say success. -/
theorem failures_look_like_success :
    (¬FailureVisible (executeSqlite sampleEngine ⟨{},[]⟩ "DELETE FROM test" []).1
        (asyncExecuteSqlite sampleEngine emptied ⟨{},[]⟩ "DELETE FROM test" []).1 ∧
      (asyncExecuteSqlite sampleEngine emptied ⟨{},[]⟩ "DELETE FROM test" []).1.errorCode.truthy =
        false) ∧
    (¬FailureVisible (executeSqlite rejecting openedObject "DELET" []).1
        (asyncExecuteSqlite rejecting emptied openedObject "DELET" []).1 ∧
      (asyncExecuteSqlite rejecting emptied openedObject "DELET" []).1.errorCode.truthy =
        false) := by
  refine ⟨⟨fun h => ?_,by decide⟩,fun h => ?_,by decide⟩
  · exact absurd (h.record.code.mp (by decide)) (by decide)
  · exact absurd (h.record.code.mp (by decide)) (by decide)

end Failure
end AlephSql
