import AlephSql.Transition
import Mathlib.Data.List.Nodup

/-! What an asynchronous service is for: jobs are submitted, each is performed at most once, and of
each job performed one report is delivered at most, which tells how it went. When and in which order
is left open. -/
namespace Service

open Transition

variable {J R S κ : Type*}

structure Terms (J R S κ : Type*) where
  key : J → κ
  about : S → κ
  tells : J → R → S → Prop

structure Book (J R S : Type*) where
  submitted : List J
  performed : List (J × R)
  reported : List S

inductive Event (J R S : Type*)
  | submit (j : J) | perform (j : J) (r : R) | report (s : S)

inductive Step (T : Terms J R S κ) : Book J R S → Event J R S → Book J R S → Prop
  | submit (b : Book J R S) (j : J) (fresh : T.key j ∉ b.submitted.map T.key) :
      Step T b (.submit j) { b with submitted := b.submitted ++ [j] }
  | perform (b : Book J R S) (j : J) (r : R) (asked : j ∈ b.submitted)
      (once : T.key j ∉ b.performed.map fun y => T.key y.1) :
      Step T b (.perform j r) { b with performed := b.performed ++ [(j,r)] }
  | report (b : Book J R S) (j : J) (r : R) (s : S) (done : (j,r) ∈ b.performed)
      (about : T.about s = T.key j) (tells : T.tells j r s)
      (once : T.about s ∉ b.reported.map T.about) :
      Step T b (.report s) { b with reported := b.reported ++ [s] }

def service (T : Terms J R S κ) : Lts (Book J R S) (Event J R S) where
  init b := b = ⟨[],[],[]⟩
  step := Step T

/-- Nothing is done unasked or twice, and every report is the only one about its job and true. -/
structure Honest (T : Terms J R S κ) (b : Book J R S) : Prop where
  submitted : (b.submitted.map T.key).Nodup
  asked : ∀ y ∈ b.performed, y.1 ∈ b.submitted
  performed : (b.performed.map fun y => T.key y.1).Nodup
  told : ∀ s ∈ b.reported, ∃ y ∈ b.performed, T.about s = T.key y.1 ∧ T.tells y.1 y.2 s
  reported : (b.reported.map T.about).Nodup

variable {T : Terms J R S κ} {b b' : Book J R S}

theorem nodup_snoc {l : List κ} {k : κ} : (l ++ [k]).Nodup ↔ l.Nodup ∧ k ∉ l := by
  rw [← List.concat_eq_append,List.nodup_concat,and_comm]

theorem step_honest {e : Event J R S} (h : Step T b e b') (hb : Honest T b) : Honest T b' := by
  cases h with
  | submit j fresh =>
    refine ⟨?_,fun y hy => List.mem_append_left _ (hb.asked y hy),hb.performed,hb.told,hb.reported⟩
    simpa using nodup_snoc.mpr ⟨hb.submitted,fresh⟩
  | perform j r asked once =>
    refine ⟨hb.submitted,fun y hy => ?_,?_,fun s hs => ?_,hb.reported⟩
    · rcases List.mem_append.mp hy with hy | hy
      · exact hb.asked y hy
      · rw [List.mem_singleton.mp hy]
        exact asked
    · simpa using nodup_snoc.mpr ⟨hb.performed,once⟩
    · obtain ⟨y,hy,htells⟩ := hb.told s hs
      exact ⟨y,List.mem_append_left _ hy,htells⟩
  | report j r s done about tells once =>
    refine ⟨hb.submitted,hb.asked,hb.performed,fun s' hs => ?_,?_⟩
    · rcases List.mem_append.mp hs with hs | hs
      · exact hb.told s' hs
      · rw [List.mem_singleton.mp hs]
        exact ⟨(j,r),done,about,tells⟩
    · simpa using nodup_snoc.mpr ⟨hb.reported,once⟩

theorem honest (h : Reachable (service T) b) : Honest T b := by
  refine h.invariant (I := Honest T) ?_ fun _ hb _ hs => step_honest hs hb
  rintro b rfl
  exact ⟨List.nodup_nil,by simp,List.nodup_nil,by simp,List.nodup_nil⟩

end Service
