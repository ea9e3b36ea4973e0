import AlephSql.Sqlite
import Mathlib.Tactic.Common

/-! The library's own error codes, their `std::error_code`, and the translation of the
engine's codes. -/
namespace AlephSql

open Sqlite

def SQL_SUCCESS : ℤ := 0
def SQL_UNIQUE_CONSTRAINT_FAILED : ℤ := -1
def SQL_SYNTAX_ERROR : ℤ := -2
def SQL_CORRUPT : ℤ := -4
def SQL_MEMORY_FULL : ℤ := -6
def SQL_TABLE_LOCKED : ℤ := -8
def SQL_IO_ERROR : ℤ := -9
def SQL_RANGE : ℤ := -12
def SQL_CANTOPEN : ℤ := -13
def SQL_NOTADB : ℤ := -14
def SQL_DATABASE_LOCKED : ℤ := -16
def SQL_NOTFOUNT : ℤ := -17
def SQL_MISMATCH : ℤ := -19

/-- `M_get_sql_error_code`; every other code falls into the `default` of its `switch`. -/
def getSqlErrorCode (sqlite3Ret : ℤ) : ℤ :=
  if sqlite3Ret = SQLITE_OK then SQL_SUCCESS
  else if sqlite3Ret = SQLITE_ERROR then SQL_SYNTAX_ERROR
  else if sqlite3Ret = SQLITE_BUSY then SQL_DATABASE_LOCKED
  else if sqlite3Ret = SQLITE_LOCKED then SQL_TABLE_LOCKED
  else if sqlite3Ret = SQLITE_IOERR then SQL_IO_ERROR
  else if sqlite3Ret = SQLITE_CORRUPT then SQL_CORRUPT
  else if sqlite3Ret = SQLITE_NOTFOUND then SQL_NOTFOUNT
  else if sqlite3Ret = SQLITE_MISMATCH then SQL_MISMATCH
  else if sqlite3Ret = SQLITE_CANTOPEN then SQL_CANTOPEN
  else if sqlite3Ret = SQLITE_NOTADB then SQL_NOTADB
  else if sqlite3Ret = SQLITE_RANGE then SQL_RANGE
  else if sqlite3Ret = SQLITE_FULL then SQL_MEMORY_FULL
  else if sqlite3Ret = SQLITE_CONSTRAINT then SQL_UNIQUE_CONSTRAINT_FAILED
  else SQL_SUCCESS

/-- The engine codes that `M_get_sql_error_code` translates to a failure. -/
def mappedCodes : List ℤ :=
  [SQLITE_ERROR,SQLITE_BUSY,SQLITE_LOCKED,SQLITE_IOERR,SQLITE_CORRUPT,SQLITE_NOTFOUND,
    SQLITE_MISMATCH,SQLITE_CANTOPEN,SQLITE_NOTADB,SQLITE_RANGE,SQLITE_FULL,SQLITE_CONSTRAINT]

theorem getSqlErrorCode_ne_success (sqlite3Ret : ℤ) :
    getSqlErrorCode sqlite3Ret ≠ SQL_SUCCESS ↔ sqlite3Ret ∈ mappedCodes := by
  constructor
  · intro h
    by_contra hout
    simp only [mappedCodes,List.mem_cons,List.not_mem_nil,not_or,or_false] at hout
    apply h
    simp [getSqlErrorCode,hout]
  · intro h
    have hall : ∀ r ∈ mappedCodes, getSqlErrorCode r ≠ SQL_SUCCESS := by decide
    exact hall sqlite3Ret h

inductive Category
  | system | sqlError
  deriving DecidableEq, Repr

/-- A `std::error_code`; a default one has value 0 and the system category. -/
structure ErrorCode where
  value : ℤ := 0
  category : Category := .system
  deriving DecidableEq, Repr

def makeErrorCode (ev : ℤ) : ErrorCode := ⟨ev,.sqlError⟩

/-- The conversion to `bool`. -/
def ErrorCode.truthy (ec : ErrorCode) : Bool := ec.value != 0

@[simp] theorem truthy_makeErrorCode (ev : ℤ) :
    (makeErrorCode ev).truthy = true ↔ ev ≠ SQL_SUCCESS := by
  simp [ErrorCode.truthy,makeErrorCode,SQL_SUCCESS]

@[simp] theorem truthy_default : ({} : ErrorCode).truthy = false := rfl

end AlephSql
