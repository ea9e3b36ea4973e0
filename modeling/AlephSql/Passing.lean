import Mathlib.Logic.Function.Basic
import Mathlib.Data.List.Basic

/-! Arguments read from named cells by copy or by move. A move leaves in its cell what `left`
makes of the value, and the next argument is read from what is left. -/
namespace Passing

variable {ι V : Type*}

inductive Source (ι V : Type*)
  | copy (x : ι)
  | move (x : ι)
  | value (v : V)

namespace Source

def read (m : ι → V) : Source ι V → V
  | copy x | move x => m x
  | value v => v

def moved : Source ι V → Option ι
  | move x => some x
  | copy _ | value _ => none

variable [DecidableEq ι]

/-- The cells once the argument has been read. -/
def leave (left : V → V) (m : ι → V) : Source ι V → ι → V
  | move x => Function.update m x (left (m x))
  | copy _ | value _ => m

end Source

open Source

def movedCells (sources : List (Source ι V)) : List ι := sources.filterMap moved

variable {left : V → V} {m : ι → V} {a : Source ι V} {sources : List (Source ι V)} {x : ι}

theorem mem_movedCells_cons :
    x ∈ movedCells (a :: sources) ↔ a.moved = some x ∨ x ∈ movedCells sources := by
  simp [movedCells,List.mem_filterMap]

variable [DecidableEq ι]

/-- The arguments in their order, each read from the cells that the ones before it have left. -/
def take (left : V → V) : List (Source ι V) → (ι → V) → List V × (ι → V)
  | [], m => ([],m)
  | a :: rest, m =>
    let later := take left rest (a.leave left m)
    (a.read m :: later.1,later.2)

theorem leave_of_kept (h : ∀ y, a.moved = some y → left (m y) = m y) : a.leave left m = m := by
  cases a with
  | copy | value => rfl
  | move y => rw [leave,h y rfl,Function.update_eq_self]

theorem take_of_kept (h : ∀ y ∈ movedCells sources, left (m y) = m y) :
    take left sources m = (sources.map (read m),m) := by
  induction sources with
  | nil => rfl
  | cons a rest ih =>
    have hhead : a.leave left m = m :=
      leave_of_kept fun y hy => h y (mem_movedCells_cons.mpr (.inl hy))
    have hrest := ih fun y hy => h y (mem_movedCells_cons.mpr (.inr hy))
    rw [take,hhead,hrest,List.map_cons]

theorem leave_apply : a.leave left m x = if a.moved = some x then left (m x) else m x := by
  cases a with
  | copy | value => simp [leave,moved]
  | move y =>
    by_cases hxy : x = y
    · subst hxy
      simp [leave,moved]
    · have hyx : y ≠ x := fun h => hxy h.symm
      simp [leave,moved,hxy,hyx]

theorem take_apply (hleft : ∀ v, left (left v) = left v) :
    (take left sources m).2 x = if x ∈ movedCells sources then left (m x) else m x := by
  induction sources generalizing m with
  | nil => rfl
  | cons a rest ih =>
    have hlater : (take left (a :: rest) m).2 x = (take left rest (a.leave left m)).2 x := rfl
    rw [hlater,ih,leave_apply]
    by_cases hhead : a.moved = some x
    · by_cases hrest : x ∈ movedCells rest <;> simp [mem_movedCells_cons,hhead,hrest,hleft]
    · by_cases hrest : x ∈ movedCells rest <;> simp [mem_movedCells_cons,hhead,hrest]

/-- The cells in sight are as they were if and only if every move has left what it found. -/
theorem take_keeps_iff (hleft : ∀ v, left (left v) = left v) {seen : List ι}
    (hseen : movedCells sources ⊆ seen) :
    (∀ y ∈ seen, (take left sources m).2 y = m y) ↔
      ∀ y ∈ movedCells sources, left (m y) = m y := by
  constructor
  · intro h y hy
    have hkept := h y (hseen hy)
    rwa [take_apply hleft,if_pos hy] at hkept
  · intro h y _
    rw [take_of_kept h]

end Passing
