import AlephSql.FailedCalls
import AlephSql.ResultRows
import AlephSql.Submission

/-! The parameters of an asynchronous operation between its call and its binds. The task holds
copies of numbers and strings, but of a C string only the address. -/
namespace AlephSql
namespace LateBinding

open Sqlite Database Failure FailedCalls ResultRows
open Submission (Var Arg)
open Passing (Source)

abbrev Address := ℕ

/-- A variable of a parameter type, or an element of the tuple that a task holds. -/
inductive Captured
  | int (value : Int32)
  | uint64 (value : UInt64)
  | double (bits : UInt64)
  | string (value : String)
  | constChar (address : Option Address)
  | char (address : Option Address)
  | nullptr
  deriving DecidableEq, Repr

structure Memory where
  texts : Var → String
  locals : Var → Captured
  buffers : Address → String

inductive Write
  | text (x : Var) (s : String)
  | assign (x : Var) (v : Captured)
  | fill (a : Address) (s : String)
  deriving DecidableEq, Repr

def Memory.write (m : Memory) : Write → Memory
  | .text x s => { m with texts := Function.update m.texts x s }
  | .assign x v => { m with locals := Function.update m.locals x v }
  | .fill a s => { m with buffers := Function.update m.buffers a s }

structure Call where
  sqlite3SqlCode : Arg String
  paramter : List (Arg Captured)

structure Task where
  sqlite3SqlCode : String
  paramter : List Captured
  deriving DecidableEq, Repr

/-- The captures `sqlite3_sql_code` and `std::make_tuple(std::forward<Args>(paramter) ...)`. -/
def capture (c : Call) (m : Memory) : Task :=
  ⟨c.sqlite3SqlCode.forward.read m.texts,
    c.paramter.map fun a => a.forward.read m.locals⟩

/-- The memory at bind `k`, when `writes k` is what the caller writes between that bind and the
one before it, or the return of the call. -/
def memoryAt (m : Memory) (writes : ℕ → List Write) : ℕ → Memory
  | 0 => (writes 0).foldl Memory.write m
  | k+1 => (writes (k+1)).foldl Memory.write (memoryAt m writes k)

/-- The address that a C string is read from. -/
def Captured.address : Captured → Option Address
  | .constChar address | .char address => address
  | _ => none

def Captured.found (buffers : Address → String) : Captured → Paramter
  | .int value => .int value
  | .uint64 value => .uint64 value
  | .double bits => .double bits
  | .string value => .string value
  | .constChar address => .constChar (address.map buffers)
  | .char address => .char (address.map buffers)
  | .nullptr => .nullptr

def paramters (t : Task) (m : Memory) (writes : ℕ → List Write) : List Paramter :=
  t.paramter.mapIdx fun k p => p.found (memoryAt m writes k).buffers

/-- The task of `async_execute_sqlite` up to its completion. -/
def runExecute (E : Engine) (d : Db) (t : Task) (m : Memory) (writes : ℕ → List Write) :
    ExecuteResult × Db :=
  executeSqlite E d t.sqlite3SqlCode (paramters t m writes)

def runSelect (E : Engine) (fuel : ℕ) (d : Db) (t : Task) (m : Memory)
    (writes : ℕ → List Write) : Option (ExecuteResult × Db) :=
  executeSqliteSelect E fuel d t.sqlite3SqlCode (paramters t m writes)

def bindValue : Event → Option Bound
  | .bind _ _ value _ => some value
  | _ => none

def boundValues (h : History) : List Bound := h.filterMap bindValue

/-- The buffers of the C strings hold the same text at each bind, if it comes to the binds. -/
def SameTexts (E : Engine) (d : Db) (t : Task) (m : Memory) (writes writes' : ℕ → List Write) :
    Prop :=
  d.self.sqlitePtr ≠ none → prepareRet E d t.sqlite3SqlCode = SQLITE_OK →
    ∀ k (hk : k < t.paramter.length) a, t.paramter[k].address = some a →
      cString ((memoryAt m writes k).buffers a) = cString ((memoryAt m writes' k).buffers a)

section Binds

variable {E : Engine} {d d' : Db} {sql : String} {args args' : List Paramter}

theorem boundValues_bindArgs (index : ℕ) :
    boundValues (bindArgs E index args d).calls =
      (args.map bound).reverse ++ boundValues d.calls := by
  induction args generalizing index d with
  | nil => rfl
  | cons p rest ih =>
    have hbind : boundValues (d.bind E index (bound p)).calls =
        bound p :: boundValues d.calls := rfl
    rw [bindArgs,ih,hbind]
    simp

/-- The values that an operation binds. -/
def bindsOf (E : Engine) (d : Db) (sql : String) (args : List Paramter) : List Bound :=
  if d.self.sqlitePtr ≠ none ∧ prepareRet E d sql = SQLITE_OK then args.map bound else []

theorem boundValues_prepared :
    boundValues (bindArgs E 1 args (d.prepareV2 E sql).2).calls =
      (args.map bound).reverse ++ boundValues d.calls :=
  boundValues_bindArgs 1

theorem boundValues_executeSqlite :
    boundValues (executeSqlite E d sql args).2.calls =
      (bindsOf E d sql args).reverse ++ boundValues d.calls := by
  rcases executeSqlite_cases E d sql args with ⟨hopen,hx⟩ | ⟨-,hfailed,hx⟩ |
    ⟨hopen,hprepare,-,hx⟩ | ⟨hopen,hprepare,-,hx⟩
  · rw [hx,bindsOf,if_neg (by simp [hopen])]
    rfl
  · rw [hx,bindsOf,if_neg (by simp [hfailed])]
    rfl
  · rw [hx,bindsOf,if_pos ⟨hopen,hprepare⟩]
    exact boundValues_prepared
  · rw [hx,bindsOf,if_pos ⟨hopen,hprepare⟩]
    exact boundValues_prepared

theorem boundValues_executeSqliteSelect {fuel : ℕ} {r : ExecuteResult}
    (h : executeSqliteSelect E fuel d sql args = some (r,d')) :
    boundValues d'.calls = (bindsOf E d sql args).reverse ++ boundValues d.calls := by
  rcases executeSqliteSelect_cases h with ⟨hopen,-,rfl⟩ | ⟨-,hfailed,-,rfl⟩ |
    ⟨hopen,hprepare,rows,-,hfetched⟩
  · rw [bindsOf,if_neg (by simp [hopen])]
    rfl
  · rw [bindsOf,if_neg (by simp [hfailed])]
    rfl
  · have hcounted : boundValues (counted E d sql args).2.calls =
        (args.map bound).reverse ++ boundValues d.calls := boundValues_prepared
    rw [bindsOf,if_pos ⟨hopen,hprepare⟩]
    exact fetchRows_rule
      (P := fun x => boundValues x.calls = (args.map bound).reverse ++ boundValues d.calls)
      (fun _ hx => hx) (fun _ _ hx => hx) hcounted hfetched

end Binds

section Runs

variable {E : Engine} {d : Db} {t : Task} {m : Memory} {writes writes' : ℕ → List Write}

/-- An element binds the same from two states of the buffers exactly if its C string, should it
be one, reads the same. -/
theorem bound_found_iff (p : Captured) (buffers buffers' : Address → String) :
    bound (p.found buffers) = bound (p.found buffers') ↔
      ∀ a, p.address = some a → cString (buffers a) = cString (buffers' a) := by
  have htext : ∀ address : Option Address,
      Bound.text ((address.map buffers).map cString) =
          .text ((address.map buffers').map cString) ↔
        ∀ a, address = some a → cString (buffers a) = cString (buffers' a) := by
    intro address
    cases address <;> simp
  cases p with
  | constChar address => exact htext address
  | char address => exact htext address
  | _ => simp [Captured.found,Captured.address]

theorem bindsOf_eq_iff :
    bindsOf E d t.sqlite3SqlCode (paramters t m writes) =
      bindsOf E d t.sqlite3SqlCode (paramters t m writes') ↔ SameTexts E d t m writes writes' := by
  have hvalues : (paramters t m writes).map bound = (paramters t m writes').map bound ↔
      ∀ k (hk : k < t.paramter.length) a, t.paramter[k].address = some a →
        cString ((memoryAt m writes k).buffers a) = cString ((memoryAt m writes' k).buffers a) := by
    have hmap : ∀ writes, (paramters t m writes).map bound =
        t.paramter.mapIdx fun k p => bound (p.found (memoryAt m writes k).buffers) :=
      fun writes => List.ext_getElem (by simp [paramters]) (by simp [paramters])
    rw [hmap,hmap,List.mapIdx_eq_mapIdx_iff]
    simp only [bound_found_iff]
  unfold bindsOf SameTexts
  by_cases hprepared : d.self.sqlitePtr ≠ none ∧ prepareRet E d t.sqlite3SqlCode = SQLITE_OK
  · rw [if_pos hprepared,if_pos hprepared,hvalues]
    exact ⟨fun h _ _ => h,fun h => h hprepared.1 hprepared.2⟩
  · rw [if_neg hprepared,if_neg hprepared]
    exact iff_of_true rfl fun hopen hprepare => absurd ⟨hopen,hprepare⟩ hprepared

end Runs

/-- Two runs that differ in what the caller writes after its call bind the same values if and
only if each C string that was passed by its address reads the same when it is bound. -/
theorem binds_as_submitted_iff (E : Engine) (d : Db) (c : Call) (m : Memory)
    (writes writes' : ℕ → List Write) :
    (boundValues (runExecute E d (capture c m) m writes).2.calls =
        boundValues (runExecute E d (capture c m) m writes').2.calls ↔
      SameTexts E d (capture c m) m writes writes') ∧
    ∀ fuel fuel' r r' e e', runSelect E fuel d (capture c m) m writes = some (r,e) →
      runSelect E fuel' d (capture c m) m writes' = some (r',e') →
      (boundValues e.calls = boundValues e'.calls ↔
        SameTexts E d (capture c m) m writes writes') := by
  have hbinds : ∀ values values' : List Bound,
      values.reverse ++ boundValues d.calls = values'.reverse ++ boundValues d.calls ↔
        values = values' := by
    intro values values'
    rw [List.append_cancel_right_eq,List.reverse_inj]
  constructor
  · rw [runExecute,runExecute,boundValues_executeSqlite,boundValues_executeSqlite,hbinds]
    exact bindsOf_eq_iff
  · intro fuel fuel' r r' e e' h h'
    rw [boundValues_executeSqliteSelect h,boundValues_executeSqliteSelect h',hbinds]
    exact bindsOf_eq_iff

section Samples

/-- One buffer, and its address in a variable. -/
def nameMemory : Memory where
  texts _ := "SELECT id, name, age FROM test WHERE name = ?"
  locals _ := .constChar (some 0)
  buffers _ := "Nana"

def queryName : Call := ⟨.lvalue 0,[.lvalue 0]⟩

def idle : ℕ → List Write := fun _ => []

def early (list : List Write) : ℕ → List Write
  | 0 => list
  | _ => []

theorem binds_as_submitted_iff_reassigned :
    boundValues (runExecute sampleEngine openedObject (capture queryName nameMemory) nameMemory
        (early [.assign 0 .nullptr,.text 0 ""])).2.calls =
      boundValues (runExecute sampleEngine openedObject (capture queryName nameMemory) nameMemory
        idle).2.calls ∧
    ∃ r r' e e',
      runSelect sampleEngine 1 openedObject (capture queryName nameMemory) nameMemory
        (early [.assign 0 .nullptr,.text 0 ""]) = some (r,e) ∧
      runSelect sampleEngine 1 openedObject (capture queryName nameMemory) nameMemory idle =
        some (r',e') ∧
      boundValues e.calls = boundValues e'.calls := by
  have hsame : SameTexts sampleEngine openedObject (capture queryName nameMemory) nameMemory
      (early [.assign 0 .nullptr,.text 0 ""]) idle := by
    intro _ _ k hk a _
    have hk0 : k = 0 := Nat.lt_one_iff.mp hk
    subst hk0
    rfl
  have h := binds_as_submitted_iff sampleEngine openedObject queryName nameMemory
    (early [.assign 0 .nullptr,.text 0 ""]) idle
  exact ⟨h.1.mpr hsame,_,_,_,_,rfl,rfl,(h.2 1 1 _ _ _ _ rfl rfl).mpr hsame⟩

/-- The caller reuses its buffer before the task is run, which then binds another name. -/
theorem reused_buffer_bound :
    boundValues (runExecute sampleEngine openedObject (capture queryName nameMemory) nameMemory
      idle).2.calls = [.text (some "Nana")] ∧
    boundValues (runExecute sampleEngine openedObject (capture queryName nameMemory) nameMemory
      (early [.fill 0 "Mis"])).2.calls = [.text (some "Mis")] := by
  constructor <;> decide

end Samples

end LateBinding
end AlephSql
