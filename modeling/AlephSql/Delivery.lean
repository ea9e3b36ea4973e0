import AlephSql.Database

/-! The tasks of the asynchronous calls: each runs the synchronous function and posts the
callback with an `error_code`, the record and a message. `post_new_task` move-initialises one
capture for each argument, left to right, from a reference to the argument. -/
namespace AlephSql
namespace Delivery

open Sqlite Database

/-- The special member functions that a class declares itself, defaulted or not. -/
structure Declared where
  copyConstructor : Bool := false
  copyAssignment : Bool := false
  moveConstructor : Bool := false
  moveAssignment : Bool := false
  destructor : Bool := false

/-- Whether the class gets an implicit move constructor; without one a move copies. -/
def Declared.implicitMove (c : Declared) : Bool :=
  !(c.copyConstructor || c.copyAssignment || c.moveConstructor || c.moveAssignment || c.destructor)

/-- `sqlite3_execute_result` declares `~sqlite3_execute_result() = default`. -/
def sqlite3ExecuteResult : Declared := { destructor := true }

/-- What a move leaves behind in a string and in a vector of rows. -/
structure Residue where
  string : String → String
  rows : List (List String) → List (List String)

def moveString (R : Residue) (s : String) : String × String := (s,R.string s)

def moveResult (c : Declared) (R : Residue) (r : ExecuteResult) : ExecuteResult × ExecuteResult :=
  if c.implicitMove then
    (r,{ r with sqlite3ExecuteError := R.string r.sqlite3ExecuteError
                sqlite3ResultRow := R.rows r.sqlite3ResultRow })
  else (r,r)

/-- The objects that the arguments of `post_new_task` refer to. -/
structure Frame where
  ec : ErrorCode
  executeResult : ExecuteResult
  temporary : String

inductive Message
  | temporary
  | executeError
  deriving DecidableEq, Repr

structure Triple where
  errorCode : ErrorCode
  executeResult : ExecuteResult
  errorMessage : String
  deriving DecidableEq, Repr

/-- `post_new_task(std::move(token), ec, std::move(result), message)`: what the task captures. -/
def postNewTask (c : Declared) (R : Residue) (f : Frame) (message : Message) : Triple :=
  let moved := moveResult c R f.executeResult
  let left := { f with executeResult := moved.2 }
  let text := match message with
    | .temporary => moveString R left.temporary
    | .executeError => moveString R left.executeResult.sqlite3ExecuteError
  ⟨f.ec,moved.1,text.1⟩

/-- What the task of `async_execute_sqlite` posts once it has its record. -/
def executeTriple (R : Residue) (r : ExecuteResult) : Triple :=
  if r.sqlite3ExecuteStatus then
    postNewTask sqlite3ExecuteResult R ⟨{},r,"Execute success"⟩ .temporary
  else
    postNewTask sqlite3ExecuteResult R
      ⟨makeErrorCode r.sqlite3ExecuteErrorCode,r,r.sqlite3ExecuteError⟩ .temporary

/-- What the task of `async_execute_sqlite_select` posts; the message of a failure refers into
the record that is moved before it. -/
def selectTriple (R : Residue) (r : ExecuteResult) : Triple :=
  if r.sqlite3ExecuteStatus then
    postNewTask sqlite3ExecuteResult R ⟨{},r,"Execute OK"⟩ .temporary
  else
    postNewTask sqlite3ExecuteResult R ⟨makeErrorCode r.sqlite3ExecuteErrorCode,r,""⟩
      .executeError

def asyncExecuteSqlite (E : Engine) (R : Residue) (d : Db) (sql : String)
    (paramter : List Paramter) : Triple × Db :=
  let answer := executeSqlite E d sql paramter
  (executeTriple R answer.1,answer.2)

def asyncExecuteSqliteSelect (E : Engine) (R : Residue) (fuel : ℕ) (d : Db) (sql : String)
    (paramter : List Paramter) : Option (Triple × Db) :=
  (executeSqliteSelect E fuel d sql paramter).map fun answer => (selectTriple R answer.1,answer.2)

/-- `async_open_sqlite_database` posts no record. -/
def openPair (success : Bool) (errorMessage : String) : ErrorCode × String :=
  if success then ({},"Open database success") else (makeErrorCode SQL_CANTOPEN,errorMessage)

/-- What a callback learns when it is told the truth about `r`. -/
structure Reports (r : ExecuteResult) (t : Triple) : Prop where
  executeResult : t.executeResult = r
  errorCode : t.errorCode.value = r.sqlite3ExecuteErrorCode
  success : r.sqlite3ExecuteStatus = true → t.errorCode.value = 0
  errorMessage : r.sqlite3ExecuteStatus = false → t.errorMessage = r.sqlite3ExecuteError

section Capture

variable {c : Declared} {R : Residue}

@[simp] theorem moveResult_fst (r : ExecuteResult) : (moveResult c R r).1 = r := by
  unfold moveResult
  split <;> rfl

@[simp] theorem postNewTask_errorCode (f : Frame) (message : Message) :
    (postNewTask c R f message).errorCode = f.ec := rfl

@[simp] theorem postNewTask_executeResult (f : Frame) (message : Message) :
    (postNewTask c R f message).executeResult = f.executeResult := moveResult_fst _

@[simp] theorem postNewTask_temporary (f : Frame) :
    (postNewTask c R f .temporary).errorMessage = f.temporary := rfl

/-- A message that refers into the record survives only because the record is copied. -/
theorem postNewTask_executeError (f : Frame) :
    (postNewTask c R f .executeError).errorMessage =
      if c.implicitMove then R.string f.executeResult.sqlite3ExecuteError
      else f.executeResult.sqlite3ExecuteError := by
  by_cases h : c.implicitMove <;> simp [postNewTask,moveResult,moveString,h]

theorem executeTriple_executeResult (r : ExecuteResult) :
    (executeTriple R r).executeResult = r := by
  unfold executeTriple
  split <;> simp

theorem selectTriple_executeResult (r : ExecuteResult) :
    (selectTriple R r).executeResult = r := by
  unfold selectTriple
  split <;> simp

end Capture

section Sync

variable {E : Engine} {R : Residue}

/-- A record that says success carries the code of success. -/
def Coherent (r : ExecuteResult) : Prop :=
  r.sqlite3ExecuteStatus = true → r.sqlite3ExecuteErrorCode = SQL_SUCCESS

theorem coherent_executeSqlite (d : Db) (sql : String) (args : List Paramter) :
    Coherent (executeSqlite E d sql args).1 := by
  simp only [executeSqlite]
  split
  · simp [Coherent,notOpen]
  · split
    · simp [Coherent,compileFailed]
    · split
      · simp [Coherent,executed]
      · simp [Coherent,stepFailed]

theorem coherent_executeSqliteSelect {fuel : ℕ} {d d' : Db} {sql : String}
    {args : List Paramter} {r : ExecuteResult}
    (h : executeSqliteSelect E fuel d sql args = some (r,d')) : Coherent r := by
  simp only [executeSqliteSelect] at h
  split at h
  · cases h
    simp [Coherent,notOpen]
  · split at h
    · cases h
      simp [Coherent,selectCompileFailed]
    · obtain ⟨fetched,-,hr⟩ := Option.map_eq_some_iff.mp h
      cases hr
      simp [Coherent,selected]

theorem reports_executeTriple {r : ExecuteResult} (h : Coherent r) :
    Reports r (executeTriple R r) := by
  unfold executeTriple
  by_cases hs : r.sqlite3ExecuteStatus = true
  · have hcode := h hs
    constructor <;> simp_all [SQL_SUCCESS]
  · constructor <;> simp_all [makeErrorCode]

theorem reports_selectTriple {r : ExecuteResult} (h : Coherent r) :
    Reports r (selectTriple R r) := by
  unfold selectTriple
  by_cases hs : r.sqlite3ExecuteStatus = true
  · have hcode := h hs
    constructor <;> simp_all [SQL_SUCCESS]
  · constructor <;>
      simp_all [makeErrorCode,postNewTask_executeError,sqlite3ExecuteResult,Declared.implicitMove]

end Sync

/-- The callbacks of `async_execute_sqlite` and `async_execute_sqlite_select` get what the
synchronous call inside the task has computed, whatever moves leave behind. -/
theorem async_reports_sync (E : Engine) (R : Residue) (d : Db) (sql : String)
    (paramter : List Paramter) :
    (∃ r t d', executeSqlite E d sql paramter = (r,d') ∧
      asyncExecuteSqlite E R d sql paramter = (t,d') ∧ Reports r t) ∧
    (∀ fuel, (executeSqliteSelect E fuel d sql paramter = none ∧
        asyncExecuteSqliteSelect E R fuel d sql paramter = none) ∨
      ∃ r t d', executeSqliteSelect E fuel d sql paramter = some (r,d') ∧
        asyncExecuteSqliteSelect E R fuel d sql paramter = some (t,d') ∧ Reports r t) := by
  refine ⟨⟨_,_,_,rfl,rfl,reports_executeTriple (coherent_executeSqlite d sql paramter)⟩,
    fun fuel => ?_⟩
  cases h : executeSqliteSelect E fuel d sql paramter with
  | none => exact .inl ⟨rfl,by simp [asyncExecuteSqliteSelect,h]⟩
  | some answer =>
    obtain ⟨r,d'⟩ := answer
    exact .inr ⟨r,selectTriple R r,d',rfl,by simp [asyncExecuteSqliteSelect,h],
      reports_selectTriple (coherent_executeSqliteSelect h)⟩

end Delivery
end AlephSql
