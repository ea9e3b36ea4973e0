import Mathlib.Data.Int.Notation
import Mathlib.Data.Nat.Notation
import Mathlib.Data.List.Basic
import Mathlib.Order.Lattice.Nat

/-! The SQLite calls of the database object. The engine is a parameter that answers each call
by the calls made before it; handles are identities and a null pointer is `none`. -/
namespace AlephSql
namespace Sqlite

abbrev ConnId := ℕ
abbrev StmtId := ℕ

def SQLITE_OK : ℤ := 0
def SQLITE_ERROR : ℤ := 1
def SQLITE_BUSY : ℤ := 5
def SQLITE_LOCKED : ℤ := 6
def SQLITE_IOERR : ℤ := 10
def SQLITE_CORRUPT : ℤ := 11
def SQLITE_NOTFOUND : ℤ := 12
def SQLITE_FULL : ℤ := 13
def SQLITE_CANTOPEN : ℤ := 14
def SQLITE_CONSTRAINT : ℤ := 19
def SQLITE_MISMATCH : ℤ := 20
def SQLITE_MISUSE : ℤ := 21
def SQLITE_RANGE : ℤ := 25
def SQLITE_NOTADB : ℤ := 26
def SQLITE_ROW : ℤ := 100
def SQLITE_DONE : ℤ := 101

/-- What a `sqlite3_bind_*` call hands over; a double by its bits. -/
inductive Bound
  | int (value : Int32)
  | int64 (value : Int64)
  | double (bits : UInt64)
  | text (value : Option String)
  | null
  deriving DecidableEq, Repr

/-- One API call: its arguments, then its answer. -/
inductive Event
  | config
  | openV2 (name : String) (ret : ℤ) (out : Option ConnId)
  | prepareV2 (conn : Option ConnId) (sql : String) (ret : ℤ) (out : Option StmtId)
  | bind (stmt : Option StmtId) (index : ℕ) (value : Bound) (ret : ℤ)
  | columnCount (stmt : Option StmtId) (count : ℕ)
  | step (stmt : Option StmtId) (ret : ℤ)
  | columnText (stmt : Option StmtId) (index : ℕ) (text : Option String)
  | changes (conn : Option ConnId) (count : ℤ)
  | errmsg (conn : Option ConnId) (text : String)
  | finalize (stmt : Option StmtId)
  | close (conn : Option ConnId) (ret : ℤ)
  deriving DecidableEq, Repr

abbrev History := List Event

structure Engine where
  openV2 : History → String → ℤ × Option ConnId
  prepareV2 : History → Option ConnId → String → ℤ × Option StmtId
  bind : History → Option StmtId → ℕ → Bound → ℤ
  columnCount : History → Option StmtId → ℕ
  step : History → Option StmtId → ℤ
  columnText : History → Option StmtId → ℕ → Option String
  changes : History → Option ConnId → ℤ
  errmsg : History → Option ConnId → String
  close : History → Option ConnId → ℤ

/-- The zero-terminated string a `const char*` argument stands for. -/
def cString (s : String) : String := String.ofList (s.toList.takeWhile (· ≠ Char.ofNat 0))

/-- The statement pointer that a bind, step or column call is handed. -/
def Event.stmt : Event → Option (Option StmtId)
  | .bind stmt _ _ _ | .columnCount stmt _ | .step stmt _ | .columnText stmt _ _ => some stmt
  | _ => none

/-- The connection pointer that a prepare, `changes` or `errmsg` call is handed. -/
def Event.conn : Event → Option (Option ConnId)
  | .prepareV2 conn _ _ _ | .changes conn _ | .errmsg conn _ => some conn
  | _ => none

def Event.isPrepare : Event → Bool
  | .prepareV2 _ _ _ _ => true
  | _ => false

theorem isPrepare_of_stmt {e : Event} {s : Option StmtId} (h : e.stmt = some s) :
    e.isPrepare = false := by
  cases e with
  | prepareV2 => cases h
  | _ => rfl

section Ledger

/-- The connection an open has stored, failed or not. -/
def Event.opens : Event → Option ConnId
  | .openV2 _ _ out => out
  | _ => none

/-- The statement a prepare has stored, with its connection. -/
def Event.prepares : Event → Option (StmtId × Option ConnId)
  | .prepareV2 conn _ _ out => out.map fun s => (s,conn)
  | _ => none

def Event.finalizes : Event → Option StmtId
  | .finalize stmt => stmt
  | _ => none

/-- The connection a successful close has released. -/
def Event.closes : Event → Option ConnId
  | .close conn ret => if ret = SQLITE_OK then conn else none
  | _ => none

def opened (h : History) : List ConnId := h.filterMap Event.opens

def prepared (h : History) : List (StmtId × Option ConnId) := h.filterMap Event.prepares

def finalized (h : History) : List StmtId := h.filterMap Event.finalizes

def closed (h : History) : List ConnId := h.filterMap Event.closes

/-- The statements of a connection that are not finalized. -/
def outstanding (h : History) (conn : ConnId) : List StmtId :=
  ((prepared h).filter fun p => p.2 = some conn ∧ p.1 ∉ finalized h).map Prod.fst

end Ledger

section Statements

/-- What the last call that `f` says anything about has made of something. -/
def latest {β : Type} (f : Event → Option (Option β)) (h : History) : Option β :=
  (h.findSome? f).join

theorem latest_cons {β : Type} (f : Event → Option (Option β)) (e : Event) (h : History) :
    latest f (e :: h) = (f e).getD (latest f h) := by
  cases he : f e <;> simp [latest,he]

theorem latest_cons_none {β : Type} {f : Event → Option (Option β)} {e : Event} (he : f e = none)
    (h : History) : latest f (e :: h) = latest f h := by
  rw [latest_cons,he,Option.getD_none]

/-- What a call does to placeholder `index` of statement `s`. -/
def Event.binds (s : StmtId) (index : ℕ) : Event → Option (Option Bound)
  | .prepareV2 _ _ _ out => if out = some s then some none else none
  | .bind stmt i value ret =>
    if stmt = some s ∧ i = index ∧ ret = SQLITE_OK then some (some value) else none
  | _ => none

/-- What a call does to the course of statement `s`. -/
def Event.steps (s : StmtId) : Event → Option (Option ℤ)
  | .prepareV2 _ _ _ out => if out = some s then some none else none
  | .step stmt ret => if stmt = some s then some (some ret) else none
  | .finalize stmt => if stmt = some s then some none else none
  | _ => none

def boundAt (s : StmtId) (index : ℕ) (h : History) : Option Bound := latest (Event.binds s index) h

def lastStep (s : StmtId) (h : History) : Option ℤ := latest (Event.steps s) h

/-- A row can be read until the statement is stepped further or finalized. -/
def OnRow (s : StmtId) (h : History) : Prop := lastStep s h = some SQLITE_ROW

end Statements

theorem filterMap_cons_toList {α β : Type} (f : α → Option β) (a : α) (l : List α) :
    (a :: l).filterMap f = (f a).toList ++ l.filterMap f := by
  cases h : f a <;> simp [h]

section Laws

/-- An open never stores a connection that an earlier one has stored. -/
def OpenFresh (E : Engine) : Prop :=
  ∀ h name c, (E.openV2 h name).2 = some c → c ∉ opened h

/-- A prepare never stores a statement that an earlier one has stored. -/
def PrepareFresh (E : Engine) : Prop :=
  ∀ h conn sql s, (E.prepareV2 h conn sql).2 = some s → s ∉ (prepared h).map Prod.fst

/-- A close succeeds exactly when no statement of the connection is left. -/
def CloseRefuses (E : Engine) : Prop :=
  ∀ h c, E.close h (some c) = SQLITE_OK ↔ outstanding h c = []

def Event.isErrmsg : Event → Bool
  | .errmsg _ _ => true
  | _ => false

def withoutErrmsg (h : History) : History := h.filter fun e => !e.isErrmsg

/-- Asking for the message of the last failure changes no later answer. -/
structure ErrmsgNeutral (E : Engine) : Prop where
  openV2 : ∀ h, E.openV2 (withoutErrmsg h) = E.openV2 h
  prepareV2 : ∀ h, E.prepareV2 (withoutErrmsg h) = E.prepareV2 h
  bind : ∀ h, E.bind (withoutErrmsg h) = E.bind h
  columnCount : ∀ h, E.columnCount (withoutErrmsg h) = E.columnCount h
  step : ∀ h, E.step (withoutErrmsg h) = E.step h
  columnText : ∀ h, E.columnText (withoutErrmsg h) = E.columnText h
  changes : ∀ h, E.changes (withoutErrmsg h) = E.changes h
  errmsg : ∀ h, E.errmsg (withoutErrmsg h) = E.errmsg h
  close : ∀ h, E.close (withoutErrmsg h) = E.close h

/-- After the second history the engine answers every call of an operation as after the first. -/
structure SameAnswers (E : Engine) (h h' : History) : Prop where
  openV2 : E.openV2 h' = E.openV2 h
  prepareV2 : E.prepareV2 h' = E.prepareV2 h
  bind : E.bind h' = E.bind h
  columnCount : E.columnCount h' = E.columnCount h
  step : E.step h' = E.step h
  columnText : E.columnText h' = E.columnText h
  changes : E.changes h' = E.changes h
  errmsg : E.errmsg h' = E.errmsg h

theorem ErrmsgNeutral.sameAnswers {E : Engine} (hE : ErrmsgNeutral E) {h h' : History}
    (hsame : withoutErrmsg h = withoutErrmsg h') : SameAnswers E h h' := by
  have answer : ∀ {α : Type} {f : History → α}, (∀ h, f (withoutErrmsg h) = f h) → f h' = f h := by
    intro α f hf
    rw [← hf,← hsame,hf]
  exact ⟨answer hE.openV2,answer hE.prepareV2,answer hE.bind,answer hE.columnCount,answer hE.step,
    answer hE.columnText,answer hE.changes,answer hE.errmsg⟩

end Laws

section Sample

def beyond (l : List ℕ) : ℕ := l.foldr max 0 + 1

theorem beyond_not_mem (l : List ℕ) : beyond l ∉ l := by
  have hle : ∀ x ∈ l, x ≤ l.foldr max 0 := by
    intro x hx
    induction l with
    | nil => simp at hx
    | cons y l ih =>
      rcases List.mem_cons.mp hx with rfl | hx
      · exact le_max_left _ _
      · exact (ih hx).trans (le_max_right _ _)
  intro h
  have hx := hle _ h
  simp only [beyond] at hx
  omega

/-- An engine in which every call succeeds, every statement is done at once, and a connection
is refused its close while it has statements. -/
def sampleEngine : Engine where
  openV2 h _ := (SQLITE_OK,some (beyond (opened h)))
  prepareV2 h _ sql :=
    (SQLITE_OK,if sql = "" then none else some (beyond ((prepared h).map Prod.fst)))
  bind _ _ _ _ := SQLITE_OK
  columnCount _ _ := 0
  step _ _ := SQLITE_DONE
  columnText _ _ _ := none
  changes _ _ := 0
  errmsg _ _ := "not an error"
  close h conn := if conn.all fun c => outstanding h c = [] then SQLITE_OK else SQLITE_BUSY

theorem openFresh_sampleEngine : OpenFresh sampleEngine := by
  intro h name c hc
  cases hc
  exact beyond_not_mem _

theorem prepareFresh_sampleEngine : PrepareFresh sampleEngine := by
  intro h conn sql s hs hmem
  simp only [sampleEngine] at hs
  split at hs
  · cases hs
  · cases hs
    exact beyond_not_mem _ hmem

theorem closeRefuses_sampleEngine : CloseRefuses sampleEngine := by
  intro h c
  by_cases hout : outstanding h c = []
  · simp [sampleEngine,hout]
  · simp [sampleEngine,hout,SQLITE_OK,SQLITE_BUSY]

theorem filterMap_withoutErrmsg {α : Type} {f : Event → Option α}
    (hf : ∀ e : Event, e.isErrmsg = true → f e = none) (h : History) :
    (withoutErrmsg h).filterMap f = h.filterMap f := by
  induction h with
  | nil => rfl
  | cons e h ih =>
    rw [filterMap_cons_toList,← ih]
    by_cases he : e.isErrmsg = true
    · simp [withoutErrmsg,he,hf e he]
    · simp [withoutErrmsg,he,filterMap_cons_toList]

theorem errmsgNeutral_sampleEngine : ErrmsgNeutral sampleEngine := by
  have hopened : ∀ h, opened (withoutErrmsg h) = opened h :=
    filterMap_withoutErrmsg fun e he => by cases e <;> simp_all [Event.isErrmsg,Event.opens]
  have hprepared : ∀ h, prepared (withoutErrmsg h) = prepared h :=
    filterMap_withoutErrmsg fun e he => by cases e <;> simp_all [Event.isErrmsg,Event.prepares]
  have hfinalized : ∀ h, finalized (withoutErrmsg h) = finalized h :=
    filterMap_withoutErrmsg fun e he => by cases e <;> simp_all [Event.isErrmsg,Event.finalizes]
  have houtstanding : ∀ h, outstanding (withoutErrmsg h) = outstanding h := by
    intro h
    funext conn
    simp only [outstanding,hprepared,hfinalized]
  constructor <;> intro h <;> simp [sampleEngine,hopened,hprepared,houtstanding]

end Sample

end Sqlite
end AlephSql
