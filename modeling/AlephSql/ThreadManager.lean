import AlephSql.Transition
import Mathlib.Data.Nat.Notation
import Mathlib.Logic.Function.Basic

/-! The object `thread_manager`: a flag behind a shared pointer, the shared pointer to the
pool, and what `init_thread`, `get_thread` and the moves do with the two. -/
namespace AlephSql
namespace ThreadManager

open Transition

abbrev PoolId := ℕ

/-- The members `M_is_thread_create` and `M_sql_thread_ptr`; null pointers are `none`. -/
structure Manager where
  isThreadCreate : Option Bool := some false
  sqlThreadPtr : Option PoolId := none
  deriving DecidableEq, Repr

/-- How a call of `init_thread` ends. Undefined is the call through a null flag pointer. -/
inductive Exit
  | returned | thrown | undefined
  deriving DecidableEq, Repr

/-- `init_thread`. `pool` is what `make_shared<sql_thread>` gives, nothing when it throws. -/
def initThread (m : Manager) (pool : Option PoolId) : Exit × Manager :=
  match m.isThreadCreate with
  | none => (.undefined,m)
  | some true => (.returned,m)
  | some false =>
    match pool with
    | none => (.thrown,{ m with isThreadCreate := some true })
    | some p => (.returned,⟨some true,some p⟩)

/-- `get_thread`; nothing when it throws. -/
def getThread (m : Manager) : Option PoolId :=
  if m.sqlThreadPtr = none then none else m.sqlThreadPtr

/-- Both members moved out of an object: what the receiver and the source hold afterwards. -/
def moved (source : Manager) : Manager × Manager :=
  (⟨source.isThreadCreate,source.sqlThreadPtr⟩,⟨none,none⟩)

/-- `thread_manager(thread_manager&&)`. -/
def moveConstruct (source : Manager) : Manager × Manager := moved source

def moveAssign (source : Manager) : Manager × Manager := moved source

/-- The flag is there, and it is set if and only if there is a pool. -/
structure Valid (m : Manager) : Prop where
  flag : m.isThreadCreate ≠ none
  agree : m.isThreadCreate = some true ↔ m.sqlThreadPtr ≠ none

theorem valid_iff (m : Manager) : Valid m ↔ m.isThreadCreate = some m.sqlThreadPtr.isSome := by
  obtain ⟨flag,ptr⟩ := m
  constructor
  · rintro ⟨hflag,hagree⟩
    cases ptr <;> rcases flag with - | - | - <;> simp_all
  · intro h
    cases ptr <;> simp_all <;> constructor <;> simp

@[simp] theorem valid_default : Valid {} := by simp [valid_iff]

theorem Valid.uninitialised {m : Manager} (h : Valid m) (hptr : m.sqlThreadPtr = none) :
    m = {} := by
  obtain ⟨flag,ptr⟩ := m
  rw [valid_iff] at h
  simp_all

@[simp] theorem not_valid_source (m : Manager) : ¬Valid (moved m).2 := fun h => h.flag rfl

theorem valid_initThread {m : Manager} (h : Valid m) (pool : Option PoolId) :
    Valid (initThread m pool).2 ↔ ¬(m.isThreadCreate = some false ∧ pool = none) := by
  obtain ⟨flag,ptr⟩ := m
  have hflag := (valid_iff _).mp h
  dsimp only at hflag
  subst hflag
  cases ptr <;> cases pool <;> simp [initThread,valid_iff]

section Objects

variable {O : Type} [DecidableEq O]

/-- The live objects. The singleton of `get_instance` is one of them. -/
abbrev World (O : Type) := O → Option Manager

inductive Action (O : Type)
  | construct (i : O)
  | initThread (i : O) (pool : Option PoolId)
  | getThread (i : O) (found : Option PoolId)
  | moveConstruct (i source : O)
  | moveAssign (i source : O)
  | destroy (i : O)

def World.put (w : World O) (i : O) (m : Manager) : World O := Function.update w i (some m)

inductive Step : World O → Action O → World O → Prop
  | construct (w : World O) (i : O) (new : w i = none) : Step w (.construct i) (w.put i {})
  | initThread (w : World O) (i : O) (m : Manager) (pool : Option PoolId) (live : w i = some m)
      (defined : (initThread m pool).1 ≠ .undefined) :
      Step w (.initThread i pool) (w.put i (initThread m pool).2)
  | getThread (w : World O) (i : O) (m : Manager) (live : w i = some m) :
      Step w (.getThread i (getThread m)) w
  | moveConstruct (w : World O) (i j : O) (m : Manager) (new : w i = none)
      (live : w j = some m) :
      Step w (.moveConstruct i j) ((w.put i (moveConstruct m).1).put j (moveConstruct m).2)
  | moveAssignSelf (w : World O) (i : O) (m : Manager) (live : w i = some m) :
      Step w (.moveAssign i i) w
  | moveAssign (w : World O) (i j : O) (m source : Manager) (other : i ≠ j)
      (live : w i = some m) (from_live : w j = some source) :
      Step w (.moveAssign i j) ((w.put i (moveAssign source).1).put j (moveAssign source).2)
  | destroy (w : World O) (i : O) (m : Manager) (live : w i = some m) :
      Step w (.destroy i) (Function.update w i none)

def world (O : Type) [DecidableEq O] : Lts (World O) (Action O) where
  init w := w = fun _ => none
  step := Step

def AllValid (w : World O) : Prop := ∀ i m, w i = some m → Valid m

/-- The steps that keep the members in agreement: no object is moved from, except by an
assignment to itself, and no construction of a pool throws. -/
def Undisturbed : World O → Action O → World O → Prop := fun w a _ =>
  match a with
  | .moveConstruct _ _ => False
  | .moveAssign i j => i = j
  | .initThread i pool => ¬((w i).bind Manager.isThreadCreate = some false ∧ pool = none)
  | _ => True

theorem allValid_put {w : World O} (h : AllValid w) {i : O} {m : Manager} :
    AllValid (w.put i m) ↔ Valid m := by
  constructor
  · intro hput
    exact hput i m (by simp [World.put])
  · intro hm j m' hj
    by_cases hji : j = i
    · subst hji
      simp only [World.put,Function.update_self,Option.some.injEq] at hj
      exact hj ▸ hm
    · simp only [World.put,Function.update_of_ne hji] at hj
      exact h j m' hj

theorem not_allValid_moved (w : World O) (j : O) (m : Manager) :
    ¬AllValid (w.put j (moved m).2) := fun h =>
  not_valid_source m (h j _ (by simp [World.put]))

/-- From valid objects a step leads to valid objects if and only if it is undisturbed. -/
theorem allValid_step {w w' : World O} {a : Action O} (hw : AllValid w) (h : Step w a w') :
    AllValid w' ↔ Undisturbed w a w' := by
  cases h with
  | construct i new => simp [allValid_put hw,Undisturbed]
  | initThread i m pool live defined =>
    rw [allValid_put hw,valid_initThread (hw i m live)]
    simp [Undisturbed,live]
  | getThread i m live => simp [hw,Undisturbed]
  | moveConstruct i j m new live =>
    simp only [Undisturbed,iff_false]
    exact not_allValid_moved _ j m
  | moveAssignSelf i m live => simp [hw,Undisturbed]
  | moveAssign i j m source other live from_live =>
    simp only [Undisturbed,other,iff_false]
    exact not_allValid_moved _ j source
  | destroy i m live =>
    simp only [Undisturbed,iff_true]
    intro j m' hj
    by_cases hji : j = i
    · subst hji
      simp at hj
    · simp only [Function.update_of_ne hji] at hj
      exact hw j m' hj

/-- Flag and pool agree in every live object throughout the programs that move no manager and
whose pool constructions succeed, and an object without a pool is then as a new one; any other
step breaks the agreement at once. -/
theorem managers_valid :
    (∀ w : World O, Reach (world O) Undisturbed w →
      AllValid w ∧ ∀ i m, w i = some m → getThread m = none → m = {}) ∧
    (∀ (w w' : World O) a, AllValid w → Step w a w' → (AllValid w' ↔ Undisturbed w a w')) := by
  constructor
  · intro w hw
    have hvalid : AllValid w := by
      refine hw.invariant (I := AllValid) ?_ fun _ hi hok h => (allValid_step hi h).mpr hok
      rintro w rfl i m hi
      cases hi
    refine ⟨hvalid,fun i m hi hnone => (hvalid i m hi).uninitialised ?_⟩
    simpa [getThread] using hnone
  · intro w w' a hw h
    exact allValid_step hw h

end Objects

section Samples

theorem reach_construct {ok : World Bool → Action Bool → World Bool → Prop}
    (hok : ∀ w w', ok w (.construct false) w') :
    Reach (world Bool) ok (World.put (fun _ => none) false {}) :=
  .step (.init rfl) (hok _ _) (.construct _ false rfl)

theorem managers_valid_initialised : ∃ w w' : World Bool,
    w false = some ⟨some true,some 7⟩ ∧ AllValid w ∧
      (AllValid w' ↔ Undisturbed w (.moveConstruct true false) w') := by
  have hinit : Reach (world Bool) Undisturbed _ :=
    .step (reach_construct fun _ _ => trivial) (by simp [Undisturbed])
      (.initThread _ false {} (some 7) rfl (by decide))
  have hvalid := (managers_valid (O := Bool)).1 _ hinit
  have hstep := (managers_valid (O := Bool)).2 _ _ _ hvalid.1
    (.moveConstruct _ true false ⟨some true,some 7⟩ rfl rfl)
  exact ⟨_,_,rfl,hvalid.1,hstep⟩

/-- A failed `init_thread` leaves the flag set, so that the next call returns and there is
still no pool; a manager that has been moved from has no flag to look at. -/
theorem managers_left_invalid :
    (∃ w : World Bool, Reachable (world Bool) w ∧ ¬AllValid w ∧
      ∃ m, w false = some m ∧ initThread m (some 7) = (.returned,m) ∧ getThread m = none) ∧
    (∃ w : World Bool, Reachable (world Bool) w ∧ ¬AllValid w ∧
      ∃ m, w false = some m ∧ initThread m (some 7) = (.undefined,m)) := by
  have hnew : Reachable (world Bool) _ := reach_construct fun _ _ => trivial
  constructor
  · have hfailed : Reachable (world Bool) _ :=
      .step hnew trivial (.initThread _ false {} none rfl (by decide))
    refine ⟨_,hfailed,fun h => ?_,⟨some true,none⟩,rfl,rfl,rfl⟩
    exact absurd ((h false _ rfl).agree.mp rfl) (by simp [initThread])
  · have hmoved : Reachable (world Bool) _ :=
      .step hnew trivial (.moveConstruct _ true false {} rfl rfl)
    exact ⟨_,hmoved,not_allValid_moved _ _ _,⟨none,none⟩,rfl,rfl⟩

end Samples

end ThreadManager
end AlephSql
