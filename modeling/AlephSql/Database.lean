import AlephSql.ErrorCode

/-! The object `sql_database_sqlite3`: its two raw handles, the synchronous operations, and
what its constructors, assignments and destructor do with the handles. -/
namespace AlephSql
namespace Database

open Sqlite

/-- The members `M_sqlite_ptr` and `M_sqlite_stmt`. -/
structure Object where
  sqlitePtr : Option ConnId := none
  sqliteStmt : Option StmtId := none
  deriving DecidableEq, Repr

/-- An object and the calls made so far. -/
structure Db where
  self : Object
  calls : History
  deriving DecidableEq, Repr

/-- `sqlite3_execute_result`. -/
structure ExecuteResult where
  sqlite3ExecuteStatus : Bool := false
  sqlite3ExecuteError : String := ""
  sqlite3ResultRow : List (List String) := []
  sqlite3AffectedRow : ℤ := 0
  sqlite3ExecuteErrorCode : ℤ := SQL_SUCCESS
  deriving DecidableEq, Repr

/-- The parameter types that `M_bind_args_paramter` accepts. -/
inductive Paramter
  | int (value : Int32)
  | uint64 (value : UInt64)
  | double (bits : UInt64)
  | string (value : String)
  | constChar (value : Option String)
  | char (value : Option String)
  | nullptr
  deriving DecidableEq, Repr

namespace Db

def log (d : Db) (e : Event) : Db := { d with calls := e :: d.calls }

variable (E : Engine) (d : Db)

/-- `sqlite3_open_v2(..., &M_sqlite_ptr, ...)`. -/
def openV2 (name : String) : ℤ × Db :=
  let answer := E.openV2 d.calls (cString name)
  (answer.1,{ self := { d.self with sqlitePtr := answer.2 }
              calls := .openV2 (cString name) answer.1 answer.2 :: d.calls })

/-- `sqlite3_prepare_v2(M_sqlite_ptr, ..., &M_sqlite_stmt, nullptr)`. -/
def prepareV2 (sql : String) : ℤ × Db :=
  let answer := E.prepareV2 d.calls d.self.sqlitePtr (cString sql)
  (answer.1,{ self := { d.self with sqliteStmt := answer.2 }
              calls := .prepareV2 d.self.sqlitePtr (cString sql) answer.1 answer.2 :: d.calls })

def bind (index : ℕ) (value : Bound) : Db :=
  d.log (.bind d.self.sqliteStmt index value (E.bind d.calls d.self.sqliteStmt index value))

def columnCount : ℕ × Db :=
  let count := E.columnCount d.calls d.self.sqliteStmt
  (count,d.log (.columnCount d.self.sqliteStmt count))

def step : ℤ × Db :=
  let ret := E.step d.calls d.self.sqliteStmt
  (ret,d.log (.step d.self.sqliteStmt ret))

def columnText (index : ℕ) : Option String × Db :=
  let text := E.columnText d.calls d.self.sqliteStmt index
  (text,d.log (.columnText d.self.sqliteStmt index text))

def changes : ℤ × Db :=
  let count := E.changes d.calls d.self.sqlitePtr
  (count,d.log (.changes d.self.sqlitePtr count))

def errmsg : String × Db :=
  let text := E.errmsg d.calls d.self.sqlitePtr
  (text,d.log (.errmsg d.self.sqlitePtr text))

end Db

/-- `open_sqlite_database`. Its log lines are left out. -/
def openSqliteDatabase (E : Engine) (d : Db) (sqlite3DatabaseName : String) : Bool × Db :=
  if sqlite3DatabaseName = "" then (false,d)
  else
    let opened := d.openV2 E sqlite3DatabaseName
    if opened.1 ≠ SQLITE_OK then (false,(opened.2.errmsg E).2)
    else (true,opened.2)

/-- What `M_bind_args_paramter` hands to the engine for a parameter. -/
def bound : Paramter → Bound
  | .int v => .int v
  | .uint64 v => .int64 v.toInt64
  | .double bits => .double bits
  | .string s => .text (some (cString s))
  | .constChar s | .char s => .text (s.map cString)
  | .nullptr => .null

/-- The fold of `M_bind_args_paramter` over the parameters. -/
def bindArgs (E : Engine) : ℕ → List Paramter → Db → Db
  | _, [], d => d
  | index, p :: rest, d => bindArgs E (index+1) rest (d.bind E index (bound p))

def notOpen : ExecuteResult :=
  { sqlite3ExecuteError := "Not open sqlite3 database file!", sqlite3ExecuteStatus := false }

def executed (affected : ℤ) : ExecuteResult :=
  { sqlite3ExecuteStatus := true, sqlite3AffectedRow := affected }

def compileFailed (message : String) : ExecuteResult :=
  { sqlite3ExecuteStatus := false, sqlite3ExecuteError := message }

def stepFailed (ret : ℤ) (message : String) : ExecuteResult :=
  { sqlite3ExecuteErrorCode := getSqlErrorCode ret
    sqlite3ExecuteError := "Exectue sqlite3 code failed! Error: " ++ message
    sqlite3ExecuteStatus := false }

def selectCompileFailed (ret : ℤ) (message : String) : ExecuteResult :=
  { sqlite3ExecuteErrorCode := getSqlErrorCode ret
    sqlite3ExecuteStatus := false
    sqlite3ExecuteError := message }

def selected (rows : List (List String)) : ExecuteResult :=
  { sqlite3ResultRow := rows, sqlite3ExecuteStatus := true }

/-- `execute_sqlite`. -/
def executeSqlite (E : Engine) (d : Db) (sql : String) (args : List Paramter) :
    ExecuteResult × Db :=
  if d.self.sqlitePtr = none then (notOpen,d)
  else
    let compiled := d.prepareV2 E sql
    if compiled.1 ≠ SQLITE_OK then
      let message := compiled.2.errmsg E
      (compileFailed message.1,message.2)
    else
      let stepped := (bindArgs E 1 args compiled.2).step E
      if stepped.1 = SQLITE_DONE then
        let changed := stepped.2.changes E
        (executed changed.1,changed.2)
      else
        let message := stepped.2.errmsg E
        (stepFailed stepped.1 message.1,message.2)

def cell (columnText : Option String) : String := (columnText.map cString).getD "NULL"

def fetchRow (E : Engine) : (remaining index : ℕ) → List String → Db → List String × Db
  | 0, _, row, d => (row,d)
  | k+1, index, row, d =>
    let text := d.columnText E index
    fetchRow E k (index+1) (row ++ [cell text.1]) text.2

/-- The loop of `execute_sqlite_select`; without an answer when it takes more than `fuel` steps. -/
def fetchRows (E : Engine) (count : ℕ) : (fuel : ℕ) → List (List String) → Db →
    Option (List (List String) × Db)
  | 0, _, _ => none
  | fuel+1, rows, d =>
    let stepped := d.step E
    if stepped.1 = SQLITE_ROW then
      let row := fetchRow E count 0 [] stepped.2
      fetchRows E count fuel (rows ++ [row.1]) row.2
    else some (rows,stepped.2)

/-- `execute_sqlite_select`. -/
def executeSqliteSelect (E : Engine) (fuel : ℕ) (d : Db) (sql : String) (args : List Paramter) :
    Option (ExecuteResult × Db) :=
  if d.self.sqlitePtr = none then some (notOpen,d)
  else
    let compiled := d.prepareV2 E sql
    if compiled.1 ≠ SQLITE_OK then
      let message := compiled.2.errmsg E
      some (selectCompileFailed compiled.1 message.1,message.2)
    else
      let counted := (bindArgs E 1 args compiled.2).columnCount E
      (fetchRows E counted.1 fuel [] counted.2).map fun fetched => (selected fetched.1,fetched.2)

/-- The operations with an asynchronous form. -/
inductive Call
  | openSqliteDatabase (name : String)
  | executeSqlite (sql : String) (args : List Paramter)
  | executeSqliteSelect (sql : String) (args : List Paramter)
  deriving DecidableEq, Repr

inductive Outcome
  | opened (success : Bool)
  | executed (result : ExecuteResult)
  deriving DecidableEq, Repr

def runCall (E : Engine) (fuel : ℕ) (d : Db) : Call → Option (Outcome × Db)
  | .openSqliteDatabase name => some ((openSqliteDatabase E d name).map .opened id)
  | .executeSqlite sql args => some ((executeSqlite E d sql args).map .executed id)
  | .executeSqliteSelect sql args =>
    (executeSqliteSelect E fuel d sql args).map fun answer => answer.map .executed id

/-- The default constructor. -/
def construct (calls : History) : Db := ⟨{},.config :: calls⟩

/-- `sql_database_sqlite3(sql_database_sqlite3&&)`: the new object; the source stays as it is. -/
def moveConstruct (source : Object) : Object := ⟨source.sqlitePtr,source.sqliteStmt⟩

/-- `operator=(&&)` between two objects: what the target and the source hold afterwards. -/
def moveAssign (source : Object) : Object × Object :=
  (⟨source.sqlitePtr,source.sqliteStmt⟩,⟨none,none⟩)

/-- `~sql_database_sqlite3`. -/
def destroy (E : Engine) (d : Db) : History :=
  let finalized := d.log (.finalize d.self.sqliteStmt)
  .close d.self.sqlitePtr (E.close finalized.calls d.self.sqlitePtr) :: finalized.calls

section Fuel

variable {E : Engine}

theorem fetchRows_mono {count fuel : ℕ} {rows : List (List String)} {d : Db}
    {x : List (List String) × Db} (h : fetchRows E count fuel rows d = some x) :
    fetchRows E count (fuel+1) rows d = some x := by
  induction fuel generalizing rows d with
  | zero => simp [fetchRows] at h
  | succ fuel ih =>
    rw [fetchRows] at h ⊢
    split at h
    · next hrow => simpa only [hrow,if_true] using ih h
    · next hrow => simpa only [hrow,if_false] using h

theorem fetchRows_le {count fuel fuel' : ℕ} (hle : fuel ≤ fuel') {rows : List (List String)}
    {d : Db} {x : List (List String) × Db} (h : fetchRows E count fuel rows d = some x) :
    fetchRows E count fuel' rows d = some x := by
  induction hle with
  | refl => exact h
  | step _ ih => exact fetchRows_mono ih

theorem runCall_le {fuel fuel' : ℕ} (hle : fuel ≤ fuel') {d : Db} {call : Call} {x : Outcome × Db}
    (h : runCall E fuel d call = some x) : runCall E fuel' d call = some x := by
  cases call with
  | openSqliteDatabase name => exact h
  | executeSqlite sql args => exact h
  | executeSqliteSelect sql args =>
    by_cases hopen : d.self.sqlitePtr = none
    · simpa only [runCall,executeSqliteSelect,hopen,if_true] using h
    · by_cases hc : (d.prepareV2 E sql).1 = SQLITE_OK
      · simp only [runCall,executeSqliteSelect,hopen,hc,if_false,ne_eq,not_true,Option.map_map,
          Option.map_eq_some_iff] at h ⊢
        obtain ⟨fetched,hrows,hx⟩ := h
        exact ⟨fetched,fetchRows_le hle hrows,hx⟩
      · simpa only [runCall,executeSqliteSelect,hopen,hc,if_false,if_true,ne_eq,not_false_iff]
          using h

end Fuel

end Database
end AlephSql
