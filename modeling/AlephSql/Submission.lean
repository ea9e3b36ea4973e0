import AlephSql.Passing
import Mathlib.Data.Int.Notation
import Mathlib.Data.Nat.Notation

/-! What submitting work does to the objects of the caller. The four calls take callbacks and
arguments by forwarding reference, and capture each of them by copy or by move. -/
namespace AlephSql
namespace Submission

open Passing

abbrev Var := ℕ

/-- The objects that a caller has. An object of class type, a closure among them, is moved
member by member unless its class declares a destructor or a copy of its own. -/
inductive Value
  | scalar (bits : ℤ)
  | string (text : String)
  | vector (items : List Value)
  | sharedPtr (target : Option ℕ)
  | function (target : Option Value)
  | object (type : ℕ) (moves : Bool) (members : List Value)

abbrev Memory := Var → Value

mutual

/-- What a move leaves behind. -/
def movedFrom : Value → Value
  | .scalar bits => .scalar bits
  | .string _ => .string ""
  | .vector _ => .vector []
  | .sharedPtr _ => .sharedPtr none
  | .function _ => .function none
  | .object type moves members =>
    .object type moves (if moves then movedMembers members else members)

def movedMembers : List Value → List Value
  | [] => []
  | v :: rest => movedFrom v :: movedMembers rest

end

inductive Arg (V : Type)
  | lvalue (x : Var)
  | constLvalue (x : Var)
  | temporary (v : V)

namespace Arg

variable {V : Type}

def value (m : Var → V) : Arg V → V
  | lvalue x | constLvalue x => m x
  | temporary v => v

def named : Arg V → Option Var
  | lvalue x | constLvalue x => some x
  | temporary _ => none

def mutable : Arg V → Option Var
  | lvalue x => some x
  | constLvalue _ | temporary _ => none

/-- `std::move(arg)`; a const object is copied. -/
def move : Arg V → Source Var V
  | lvalue x => .move x
  | constLvalue x => .copy x
  | temporary v => .value v

/-- `std::forward<Args>(arg)`, and `std::move(arg)` of a `const std::string&`. -/
def forward : Arg V → Source Var V
  | lvalue x | constLvalue x => .copy x
  | temporary v => .value v

variable {m : Var → V}

@[simp] theorem read_move (a : Arg V) : a.move.read m = a.value m := by cases a <;> rfl

@[simp] theorem read_forward (a : Arg V) : a.forward.read m = a.value m := by cases a <;> rfl

@[simp] theorem moved_move (a : Arg V) : a.move.moved = a.mutable := by cases a <;> rfl

@[simp] theorem moved_forward (a : Arg V) : a.forward.moved = none := by cases a <;> rfl

end Arg

inductive Call
  | postNewTask (token : Arg Value) (args : List (Arg Value))
  | asyncOpenSqliteDatabase (sqliteDatabaseName token : Arg Value)
  | asyncExecuteSqlite (sqlite3SqlCode token : Arg Value) (paramter : List (Arg Value))
  | asyncExecuteSqliteSelect (sqlite3SqlCode token : Arg Value) (paramter : List (Arg Value))

namespace Call

def token : Call → Arg Value
  | postNewTask token _ | asyncOpenSqliteDatabase _ token | asyncExecuteSqlite _ token _
  | asyncExecuteSqliteSelect _ token _ => token

/-- What is captured after the callback, in the order of the captures. -/
def args : Call → List (Arg Value)
  | postNewTask _ args => args
  | asyncOpenSqliteDatabase sqliteDatabaseName _ => [sqliteDatabaseName]
  | asyncExecuteSqlite sqlite3SqlCode _ paramter
  | asyncExecuteSqliteSelect sqlite3SqlCode _ paramter => sqlite3SqlCode :: paramter

/-- How it is captured. -/
def capture : Call → Arg Value → Source Var Value
  | postNewTask _ _ => Arg.move
  | asyncOpenSqliteDatabase _ _ | asyncExecuteSqlite _ _ _ | asyncExecuteSqliteSelect _ _ _ =>
    Arg.forward

/-- The captured callback: the asynchronous calls make a `std::function` of it. -/
def callback : Call → Value → Value
  | postNewTask _ _, v => v
  | _, .function target => .function target
  | _, v => .function (some v)

def lvalues (c : Call) : List Var := (c.token :: c.args).filterMap Arg.named

/-- The lvalues that are passed as a callback, or to `post_new_task`, and are not const. -/
def exposed : Call → List Var
  | postNewTask token args => (token :: args).filterMap Arg.mutable
  | asyncOpenSqliteDatabase _ token | asyncExecuteSqlite _ token _
  | asyncExecuteSqliteSelect _ token _ => [token].filterMap Arg.mutable

end Call

structure Task where
  token : Value
  args : List Value

/-- A call: the task that it posts, and what it leaves the caller. -/
def submit (c : Call) (m : Memory) : Task × Memory :=
  let args := take movedFrom (c.args.map c.capture) (c.token.move.leave movedFrom m)
  (⟨c.callback (c.token.move.read m),args.1⟩,args.2)

/-- `post_new_task(std::move(token), ...)` in the task of an asynchronous call, with what it has
made itself. -/
def complete (t : Task) (results : List Value) (m : Memory) : Task × Memory :=
  submit (.postNewTask (.temporary t.token) (results.map .temporary)) m

def taskAt (c : Call) (m : Memory) : Task :=
  ⟨c.callback (c.token.value m),c.args.map (Arg.value m)⟩

/-- A call leaves the lvalues as they were, and its task and the completion of that run the
callback with their values. -/
structure Keeps (c : Call) (m : Memory) : Prop where
  lvalues : ∀ x ∈ c.lvalues, (submit c m).2 x = m x
  task : (submit c m).1 = taskAt c m
  completion : ∀ results later,
    complete (submit c m).1 results later = (⟨(taskAt c m).token,results⟩,later)

/-- Every call of a sequence does. -/
def AllKeep : List Call → Memory → Prop
  | [], _ => True
  | c :: rest, m => Keeps c m ∧ AllKeep rest (submit c m).2

mutual

theorem movedFrom_movedFrom : ∀ v, movedFrom (movedFrom v) = movedFrom v
  | .scalar _ | .string _ | .vector _ | .sharedPtr _ | .function _ => by simp [movedFrom]
  | .object type moves members => by
    cases moves <;> simp [movedFrom,movedMembers_movedMembers members]

theorem movedMembers_movedMembers :
    ∀ members, movedMembers (movedMembers members) = movedMembers members
  | [] => rfl
  | v :: rest => by
    simp [movedMembers,movedFrom_movedFrom v,movedMembers_movedMembers rest]

end

section Calls

variable {c : Call} {m : Memory}

def sources (c : Call) : List (Source Var Value) := c.token.move :: c.args.map c.capture

theorem submit_eq :
    submit c m =
      (⟨c.callback (c.token.value m),(take movedFrom (sources c) m).1.tail⟩,
        (take movedFrom (sources c) m).2) := by
  simp [submit,sources,take]

theorem movedCells_move (args : List (Arg Value)) :
    movedCells (args.map Arg.move) = args.filterMap Arg.mutable := by
  rw [movedCells,List.filterMap_map]
  congr 1
  funext a
  exact a.moved_move

theorem movedCells_forward (a : Arg Value) (args : List (Arg Value)) :
    movedCells (a.move :: args.map Arg.forward) = [a].filterMap Arg.mutable := by
  have hsplit : movedCells (a.move :: args.map Arg.forward) =
      movedCells ([a].map Arg.move) ++ movedCells (args.map Arg.forward) :=
    List.filterMap_append (l := [a.move])
  have hcopied : movedCells (args.map Arg.forward) = [] := by simp [movedCells]
  rw [hsplit,hcopied,movedCells_move,List.append_nil]

theorem movedCells_sources : movedCells (sources c) = c.exposed := by
  cases c with
  | postNewTask token args => exact movedCells_move (token :: args)
  | asyncOpenSqliteDatabase name token => exact movedCells_forward token [name]
  | asyncExecuteSqlite sql token paramter => exact movedCells_forward token (sql :: paramter)
  | asyncExecuteSqliteSelect sql token paramter => exact movedCells_forward token (sql :: paramter)

theorem exposed_subset_lvalues : c.exposed ⊆ c.lvalues := by
  have hnamed : ∀ {a : Arg Value} {x : Var}, a.mutable = some x → a.named = some x := by
    intro a x h
    cases a with
    | lvalue => exact h
    | constLvalue | temporary => cases h
  have hall : ∀ {args : List (Arg Value)}, args ⊆ c.token :: c.args →
      args.filterMap Arg.mutable ⊆ c.lvalues := by
    intro args hargs x hx
    obtain ⟨a,ha,hax⟩ := List.mem_filterMap.mp hx
    exact List.mem_filterMap.mpr ⟨a,hargs ha,hnamed hax⟩
  cases c with
  | postNewTask => exact hall fun _ h => h
  | asyncOpenSqliteDatabase | asyncExecuteSqlite | asyncExecuteSqliteSelect =>
    exact hall (by simp [Call.token])

theorem map_read_sources :
    (sources c).map (Source.read m) = c.token.value m :: c.args.map (Arg.value m) := by
  have hcapture : ∀ a, (c.capture a).read m = a.value m := by
    intro a
    cases c with
    | postNewTask => exact a.read_move
    | asyncOpenSqliteDatabase | asyncExecuteSqlite | asyncExecuteSqliteSelect =>
      exact a.read_forward
  simp [sources,hcapture]

theorem submit_of_kept (h : ∀ x ∈ c.exposed, movedFrom (m x) = m x) :
    submit c m = (taskAt c m,m) := by
  rw [submit_eq,take_of_kept (by rwa [movedCells_sources]),map_read_sources]
  rfl

theorem complete_eq (t : Task) (results : List Value) :
    complete t results m = (⟨t.token,results⟩,m) := by
  have hexposed :
      (Call.postNewTask (.temporary t.token) (results.map .temporary)).exposed = [] := by
    simp [Call.exposed,Arg.mutable]
  rw [complete,submit_of_kept (by simp [hexposed])]
  simp [taskAt,Call.token,Call.args,Call.callback,Arg.value,Function.comp_def]

theorem keeps_iff : Keeps c m ↔ ∀ x ∈ c.exposed, movedFrom (m x) = m x := by
  have hcells : movedCells (sources c) ⊆ c.lvalues := by
    rw [movedCells_sources]
    exact exposed_subset_lvalues
  have htake := take_keeps_iff (m := m) movedFrom_movedFrom hcells
  rw [movedCells_sources] at htake
  constructor
  · intro h
    refine htake.mp fun x hx => ?_
    have hkept := h.lvalues x hx
    rwa [submit_eq] at hkept
  · intro h
    have hsubmit := submit_of_kept h
    exact ⟨fun x _ => by rw [hsubmit],by rw [hsubmit],fun results later => by
      rw [hsubmit,complete_eq]⟩

end Calls

/-- In a sequence of calls every lvalue is as it was after each of them, and every task has the
values from its submission, if and only if no value that a move changes is exposed. -/
theorem submissions_keep_iff (cs : List Call) (m : Memory) :
    AllKeep cs m ↔ ∀ c ∈ cs, ∀ x ∈ c.exposed, movedFrom (m x) = m x := by
  induction cs with
  | nil => simp [AllKeep]
  | cons c cs ih =>
    rw [AllKeep,keeps_iff,List.forall_mem_cons]
    apply and_congr_right
    intro hc
    rw [submit_of_kept hc]
    exact ih

section Samples

def callbackMemory : Memory := fun _ => .function (some (.object 0 true []))

def openTwice : List Call :=
  [.asyncOpenSqliteDatabase (.temporary (.string "test.db")) (.lvalue 0),
    .asyncOpenSqliteDatabase (.temporary (.string "other.db")) (.lvalue 0)]

/-- The same callback for two files: the first call empties it, and the second task runs an
empty function. -/
theorem callback_emptied :
    (submit openTwice[0] callbackMemory).2 0 = .function none ∧
    (submit openTwice[1] (submit openTwice[0] callbackMemory).2).1.token = .function none ∧
    ¬AllKeep openTwice callbackMemory := by
  refine ⟨rfl,rfl,fun h => ?_⟩
  have hkept := h.1.lvalues 0 (by decide)
  cases hkept

end Samples

end Submission
end AlephSql
