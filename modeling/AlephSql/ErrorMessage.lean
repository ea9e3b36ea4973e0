import AlephSql.CallbackArguments

/-! The texts of `aleph_sql_error_category`, and which failures a callback can tell apart by the
message of its error code. -/
namespace AlephSql

def SQL_SCHEMA : ℤ := -3
def SQL_MOMEM : ℤ := -10
def SQL_TOOBIG : ℤ := -11

/-- `aleph_sql_error_category::message`. -/
def message (ev : ℤ) : String :=
  if ev = SQL_SUCCESS then "Sqlite3 OK"
  else if ev = SQL_UNIQUE_CONSTRAINT_FAILED then "The same resource already exists"
  else if ev = SQL_SYNTAX_ERROR then "There's a mistake in the SQL syntax"
  else if ev = SQL_MOMEM then "SQL memory is full"
  else if ev = SQL_MEMORY_FULL then "Not enough disk space"
  else if ev = SQL_IO_ERROR then "Database write/output error"
  else if ev = SQL_TOOBIG then "Content is too large"
  else if ev = SQL_DATABASE_LOCKED then "The database has been locked"
  else if ev = SQL_CANTOPEN then "Can't open this database"
  else if ev = SQL_NOTFOUNT then "Database not found"
  else if ev = SQL_NOTADB then "Non-database resources"
  else if ev = SQL_SCHEMA then "Database resources are corrupted"
  else if ev = SQL_RANGE then "Exceeds the legal range of the database"
  else "Not found sql error"

/-- `std::error_code::message`; the texts of the system category are not the library's. -/
def ErrorCode.message (systemMessage : ℤ → String) (ec : ErrorCode) : String :=
  match ec.category with
  | .system => systemMessage ec.value
  | .sqlError => AlephSql.message ec.value

section Codes

def reportedCodes : List ℤ := SQL_SUCCESS :: mappedCodes.map getSqlErrorCode

/-- The reported codes that `message` has no text for. -/
def untoldCodes : List ℤ := [SQL_TABLE_LOCKED,SQL_CORRUPT,SQL_MISMATCH]

theorem getSqlErrorCode_mem (ret : ℤ) : getSqlErrorCode ret ∈ reportedCodes := by
  by_cases h : getSqlErrorCode ret = SQL_SUCCESS
  · rw [h]
    exact List.mem_cons_self
  · exact List.mem_cons_of_mem _ (List.mem_map_of_mem ((getSqlErrorCode_ne_success ret).mp h))

theorem message_eq_iff {a b : ℤ} (ha : a ∈ reportedCodes) (hb : b ∈ reportedCodes) :
    message a = message b ↔ a = b ∨ a ∈ untoldCodes ∧ b ∈ untoldCodes := by
  have hall : ∀ a ∈ reportedCodes, ∀ b ∈ reportedCodes,
      message a = message b ↔ a = b ∨ a ∈ untoldCodes ∧ b ∈ untoldCodes := by decide
  exact hall a ha b hb

end Codes

namespace AsyncPool

open Sqlite Database Delivery SqlThread Transition Interleave

def Fails {K : Type} (k : Completion K) (t : Triple) : Prop :=
  k.args = .executed t ∧ t.executeResult.sqlite3ExecuteStatus = false

theorem failing_code {t : Triple} (h : TripleFits t)
    (hfails : t.executeResult.sqlite3ExecuteStatus = false) (systemMessage : ℤ → String) :
    t.errorCode.message systemMessage = message t.executeResult.sqlite3ExecuteErrorCode ∧
      t.executeResult.sqlite3ExecuteErrorCode ∈ reportedCodes := by
  obtain ⟨ret,hret⟩ := h.record.code
  refine ⟨?_,by rw [hret]; exact getSqlErrorCode_mem ret⟩
  rw [(h.failure hfails).1]
  rfl

theorem messages_tell_codes {O K : Type} [DecidableEq O] (E : Engine) (R : Residue)
    (behaves : Behaviour O) (m n : ℕ) (objects : O → Object) (calls : History)
    (systemMessage : ℤ → String) (c : AsyncState m n O K)
    (hc : Reach (asyncPool E R behaves m n objects calls).lts Submits c) :
    ∀ k ∈ c.shared.data.invoked, ∀ t, Fails k t →
      t.executeResult.sqlite3ExecuteErrorCode ∈ reportedCodes ∧
      (t.errorCode.message systemMessage = "Sqlite3 OK" ↔ t.errorCode.truthy = false) ∧
      ∀ k' ∈ c.shared.data.invoked, ∀ t', Fails k' t' →
        (t.errorCode.message systemMessage = t'.errorCode.message systemMessage ↔
          t.errorCode = t'.errorCode ∨
            t.executeResult.sqlite3ExecuteErrorCode ∈ untoldCodes ∧
              t'.executeResult.sqlite3ExecuteErrorCode ∈ untoldCodes) := by
  have hfits : ∀ k ∈ c.shared.data.invoked, ∀ t, Fails k t → TripleFits t := by
    intro k hk t ht
    have hargs := (fitting hc .destroyer).invoked k hk
    rw [ht.1] at hargs
    exact hargs
  intro k hk t ht
  have hfit := hfits k hk t ht
  obtain ⟨htext,hcode⟩ := failing_code hfit ht.2 systemMessage
  have hec := (hfit.failure ht.2).1
  refine ⟨hcode,?_,fun k' hk' t' ht' => ?_⟩
  · have hok := message_eq_iff hcode (List.mem_cons_self : SQL_SUCCESS ∈ reportedCodes)
    have htold : SQL_SUCCESS ∉ untoldCodes := by decide
    have hsuccess : message SQL_SUCCESS = "Sqlite3 OK" := rfl
    rw [htext,← hsuccess,hok,hec,← Bool.not_eq_true,truthy_makeErrorCode,not_not]
    simp [htold]
  · have hfit' := hfits k' hk' t' ht'
    obtain ⟨htext',hcode'⟩ := failing_code hfit' ht'.2 systemMessage
    rw [htext,htext',message_eq_iff hcode hcode',hec,(hfit'.failure ht'.2).1]
    simp [makeErrorCode]

theorem messages_tell_codes_unopened : ∃ c : AsyncState 1 1 Unit Unit,
    ∃ k ∈ c.shared.data.invoked, ∃ t, Fails k t ∧
      t.errorCode.message (fun _ => "Success") = "Sqlite3 OK" ∧ t.errorCode.truthy = false := by
  obtain ⟨c,hc,hinvoked⟩ := selectUnopened_invoked
  have hmem : selectUnopenedCallback ∈ c.shared.data.invoked := by simp [hinvoked]
  have hfails : Fails selectUnopenedCallback (tripleOf ⟨id,id⟩ selectUnopened.call notOpen) :=
    ⟨rfl,rfl⟩
  have htells := messages_tell_codes sampleEngine ⟨id,id⟩ (fun _ _ => False) 1 1 (fun _ => {})
    [.config] (fun _ => "Success") c hc _ hmem _ hfails
  exact ⟨c,_,hmem,_,hfails,htells.2.1.mpr rfl,rfl⟩

end AsyncPool
end AlephSql
