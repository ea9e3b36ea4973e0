import AlephSql.Custody
import AlephSql.MysqlConnect

/-! The class `mysql_execute_command`. A call makes a statement, compiles the command into it and
returns; the statement has no other holder than the local variable of the call. -/
namespace AlephSql
namespace MysqlExecute

open Custody
open Sqlite (cString)
open Mysql (HandleId LoggerLevel)

abbrev StmtId := ℕ

/-- One library call with its answer, or a line of the log. -/
inductive Event
  | stmtInit (handle : Option HandleId) (out : Option StmtId)
  | stmtPrepare (stmt : Option StmtId) (query : String) (length : ℕ) (ret : ℤ)
  | stmtError (stmt : Option StmtId) (text : String)
  | stmtClose (stmt : Option StmtId)
  | logger (level : LoggerLevel) (message : String)
  deriving DecidableEq, Repr

abbrev History := List Event

structure Client where
  stmtInit : History → Option HandleId → Option StmtId
  stmtPrepare : History → Option StmtId → String → ℕ → ℤ
  stmtError : History → Option StmtId → String

/-- `complite_command`. -/
def compliteCommand (C : Client) (h : History) (commandCode : String) (mysqlStmt : Option StmtId) :
    Bool × History :=
  if mysqlStmt = none then (false,.logger .error "Invliad mysql_stmt!" :: h)
  else
    let query := cString commandCode
    let ret := C.stmtPrepare h mysqlStmt query query.utf8ByteSize
    let prepared := .stmtPrepare mysqlStmt query query.utf8ByteSize ret :: h
    if ret = 0 then (true,prepared)
    else
      let text := cString (C.stmtError prepared mysqlStmt)
      (false,.logger .error text :: .stmtError mysqlStmt text :: prepared)

/-- `command_execute`; it does nothing with its further arguments. -/
def commandExecute (C : Client) (h : History) (mysqlCommand : Option String)
    (mysqlHandler : Option HandleId) : Bool × History :=
  match mysqlCommand with
  | none => (false,.logger .error "Invalid command or mysql_handler!" :: h)
  | some command =>
    if mysqlHandler = none then (false,.logger .error "Invalid command or mysql_handler!" :: h)
    else
      let stmt := C.stmtInit h mysqlHandler
      let inited := .stmtInit mysqlHandler stmt :: h
      if stmt = none then (false,.logger .error "Initlized stmt failed!" :: inited)
      else
        let complited := compliteCommand C inited command stmt
        if complited.1 then (false,complited.2) else (false,complited.2)

def run (C : Client) (h : History) : List (Option String × Option HandleId) → List Bool × History
  | [] => ([],h)
  | call :: calls =>
    let answer := commandExecute C h call.1 call.2
    let rest := run C answer.2 calls
    (answer.1 :: rest.1,rest.2)

def stmtEvent : Event → Option (Custody.Event StmtId)
  | .stmtInit _ out => out.map .acquire
  | .stmtPrepare stmt _ _ _ | .stmtError stmt _ => stmt.map .use
  | .stmtClose stmt => stmt.map .release
  | .logger _ _ => none

def stmtLog (h : History) : Log StmtId := h.filterMap stmtEvent

def compiles : Event → Option StmtId
  | .stmtPrepare stmt _ _ _ => stmt
  | _ => none

def compiled (h : History) : List StmtId := h.filterMap compiles

/-- `mysql_stmt_init` never returns a statement that it has returned before. -/
def StmtFresh (C : Client) : Prop :=
  ∀ h handle s, C.stmtInit h handle = some s → s ∉ acquired (stmtLog h)

/-- No null pointer is handed to the library. -/
def PointersSet (h : History) : Prop :=
  ∀ e ∈ h, (∀ out, e ≠ .stmtInit none out) ∧ (∀ q l r, e ≠ .stmtPrepare none q l r) ∧
    ∀ text, e ≠ .stmtError none text

/-- Between two calls: nobody holds a statement, each that was ever made has been compiled into
once, in the order in which they were made, and none has been closed. -/
structure Unclosed (h : History) : Prop where
  sound : Sound (fun _ : Unit => none) (stmtLog h)
  compiled : compiled h = acquired (stmtLog h)
  released : released (stmtLog h) = []
  set : PointersSet h

section Calls

variable {C : Client} {h : History}

theorem Unclosed.logged (hl : Unclosed h) (level : LoggerLevel) (message : String) :
    Unclosed (.logger level message :: h) where
  sound := hl.sound
  compiled := hl.compiled
  released := hl.released
  set := by
    intro e he
    rcases List.mem_cons.mp he with rfl | he
    · simp
    · exact hl.set e he

theorem Unclosed.refused (hl : Unclosed h) (c : HandleId) :
    Unclosed (.stmtInit (some c) none :: h) where
  sound := hl.sound
  compiled := hl.compiled
  released := hl.released
  set := by
    intro e he
    rcases List.mem_cons.mp he with rfl | he
    · simp
    · exact hl.set e he

theorem sound_let_go {s : StmtId} {log : Log StmtId}
    (hs : Sound (Function.update (fun _ : Unit => none) () (some s)) log) :
    Sound (fun _ : Unit => none) log := by
  have hdrop := hs.drop ()
  rwa [Function.update_idem,Function.update_eq_self] at hdrop

/-- A statement that is made and compiled into is let go by the call. -/
theorem Unclosed.compiles (hl : Unclosed h) {s : StmtId} (hs : s ∉ acquired (stmtLog h))
    (c : HandleId) (query : String) (length : ℕ) (ret : ℤ) :
    Unclosed (.stmtPrepare (some s) query length ret :: .stmtInit (some c) (some s) :: h) where
  sound := sound_let_go ((hl.sound.acquire () hs).use (i := ()) (by simp))
  compiled := congrArg (s :: ·) hl.compiled
  released := hl.released
  set := by
    intro e he
    simp only [List.mem_cons] at he
    rcases he with rfl | rfl | he
    · simp
    · simp
    · exact hl.set e he

theorem Unclosed.fails (hl : Unclosed h) {s : StmtId} (hs : s ∉ acquired (stmtLog h)) (c : HandleId)
    (query : String) (length : ℕ) (ret : ℤ) (text : String) :
    Unclosed (.stmtError (some s) text :: .stmtPrepare (some s) query length ret ::
      .stmtInit (some c) (some s) :: h) where
  sound := sound_let_go
    (((hl.sound.acquire () hs).use (i := ()) (by simp)).use (i := ()) (by simp))
  compiled := congrArg (s :: ·) hl.compiled
  released := hl.released
  set := by
    intro e he
    rcases List.mem_cons.mp he with rfl | he
    · simp
    · exact (hl.compiles hs c query length ret).set e he

theorem unclosed_commandExecute (hfresh : StmtFresh C) (hl : Unclosed h)
    (mysqlCommand : Option String) (mysqlHandler : Option HandleId) :
    (commandExecute C h mysqlCommand mysqlHandler).1 = false ∧
      Unclosed (commandExecute C h mysqlCommand mysqlHandler).2 := by
  cases mysqlCommand with
  | none => exact ⟨rfl,hl.logged _ _⟩
  | some command =>
    cases mysqlHandler with
    | none => exact ⟨rfl,hl.logged _ _⟩
    | some c =>
      cases hstmt : C.stmtInit h (some c) with
      | none =>
        simp only [commandExecute,hstmt]
        exact ⟨rfl,(hl.refused c).logged _ _⟩
      | some s =>
        have hs := hfresh h (some c) s hstmt
        simp only [commandExecute,compliteCommand,hstmt,reduceCtorEq,if_false]
        split <;> split
        · exact ⟨rfl,hl.compiles hs c _ _ _⟩
        · next hok hfalse => exact absurd rfl hfalse
        · next hok htrue => cases htrue
        · exact ⟨rfl,(hl.fails hs c _ _ _ _).logged _ _⟩

theorem unclosed_run (hfresh : StmtFresh C) (hl : Unclosed h)
    (program : List (Option String × Option HandleId)) :
    (∀ b ∈ (run C h program).1, b = false) ∧ Unclosed (run C h program).2 := by
  induction program generalizing h with
  | nil => exact ⟨by simp [run],hl⟩
  | cons call calls ih =>
    obtain ⟨hfalse,hunclosed⟩ := unclosed_commandExecute hfresh hl call.1 call.2
    obtain ⟨hrest,hend⟩ := ih hunclosed
    refine ⟨fun b hb => ?_,hend⟩
    rcases List.mem_cons.mp hb with rfl | hb
    · exact hfalse
    · exact hrest b hb

theorem unclosed_nil : Unclosed [] := ⟨sound_nil,rfl,rfl,by simp [PointersSet]⟩

end Calls

theorem Unclosed.kept_iff {h : History} (hl : Unclosed h) :
    Kept (fun _ : Unit => none) (stmtLog h) ↔ acquired (stmtLog h) = [] := by
  constructor
  · intro hk
    refine List.eq_nil_iff_forall_not_mem.mpr fun s hs => ?_
    have hreleased := hk.all_released (fun _ => rfl) s hs
    rw [hl.released] at hreleased
    cases hreleased
  · intro hnone s hs
    rw [hnone] at hs
    cases hs

theorem statements_left_open (C : Client) (hfresh : StmtFresh C)
    (program : List (Option String × Option HandleId)) :
    (∀ b ∈ (run C [] program).1, b = false) ∧ Unclosed (run C [] program).2 ∧
      (Kept (fun _ : Unit => none) (stmtLog (run C [] program).2) ↔
        acquired (stmtLog (run C [] program).2) = []) := by
  obtain ⟨hfalse,hunclosed⟩ := unclosed_run hfresh unclosed_nil program
  exact ⟨hfalse,hunclosed,hunclosed.kept_iff⟩

def sampleClient : Client where
  stmtInit h _ := some (Sqlite.beyond (acquired (stmtLog h)))
  stmtPrepare _ _ _ _ := 0
  stmtError _ _ := ""

theorem stmtFresh_sampleClient : StmtFresh sampleClient := by
  intro h handle s hs
  cases hs
  exact Sqlite.beyond_not_mem _

theorem statements_left_open_two :
    (run sampleClient [] [(some "SELECT 1",some 0),(some "SELECT 2",some 0)]).1 = [false,false] ∧
      ¬Kept (fun _ : Unit => none)
        (stmtLog (run sampleClient [] [(some "SELECT 1",some 0),(some "SELECT 2",some 0)]).2) := by
  obtain ⟨-,-,hkept⟩ := statements_left_open sampleClient stmtFresh_sampleClient
    [(some "SELECT 1",some 0),(some "SELECT 2",some 0)]
  exact ⟨rfl,fun hk => absurd (hkept.mp hk) (List.cons_ne_nil 2 [1])⟩

end MysqlExecute
end AlephSql
