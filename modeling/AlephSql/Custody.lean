import Mathlib.Logic.Function.Basic
import Mathlib.Data.List.Nodup

/-! Resources and their holders. A resource is acquired once, may be used while it is not
released, and is released at most once. The rules say what each operation on holders does to
the two questions of ownership: does nobody else hold it, and does somebody. -/
namespace Custody

variable {O H : Type*}

inductive Event (H : Type*)
  | acquire (h : H)
  | use (h : H)
  | release (h : H)

abbrev Log (H : Type*) := List (Event H)

def acquired : Log H → List H
  | [] => []
  | .acquire h :: log => h :: acquired log
  | .use _ :: log | .release _ :: log => acquired log

def released : Log H → List H
  | [] => []
  | .release h :: log => h :: released log
  | .acquire _ :: log | .use _ :: log => released log

/-- Nothing is used or released after its release. -/
def Safe : Log H → Prop
  | [] => True
  | .acquire _ :: log => Safe log
  | .use h :: log | .release h :: log => Safe log ∧ h ∉ released log

/-- Each resource has at most one holder, and what is held has not been released. -/
structure Sound (holder : O → Option H) (log : Log H) : Prop where
  sole : ∀ i j h, holder i = some h → holder j = some h → i = j
  live : ∀ i h, holder i = some h → h ∈ acquired log ∧ h ∉ released log
  known : ∀ h ∈ released log, h ∈ acquired log
  safe : Safe log

def Kept (holder : O → Option H) (log : Log H) : Prop :=
  ∀ h ∈ acquired log, h ∉ released log → ∃ i, holder i = some h

variable {holder : O → Option H} {log : Log H}

theorem sound_nil : Sound (fun _ : O => (none : Option H)) [] := by
  constructor <;> simp [acquired,released,Safe]

theorem kept_nil : Kept (fun _ : O => (none : Option H)) [] := by
  simp [Kept,acquired]

theorem Sound.use {i : O} {h : H} (hs : Sound holder log) (hi : holder i = some h) :
    Sound holder (.use h :: log) where
  sole := hs.sole
  live := hs.live
  known := hs.known
  safe := ⟨hs.safe,(hs.live i h hi).2⟩

theorem Kept.use {h : H} (hk : Kept holder log) : Kept holder (.use h :: log) := hk

section Update

variable [DecidableEq O]

theorem held_update {i j : O} {x : Option H} {h : H} (hj : Function.update holder i x j = some h) :
    j = i ∧ x = some h ∨ j ≠ i ∧ holder j = some h := by
  by_cases hij : j = i
  · subst hij
    exact .inl ⟨rfl,by simpa using hj⟩
  · exact .inr ⟨hij,by simpa [hij] using hj⟩

theorem Sound.drop (hs : Sound holder log) (i : O) : Sound (Function.update holder i none) log where
  sole j k h hj hk := by
    rcases held_update hj with ⟨-,hx⟩ | ⟨-,hj⟩
    · cases hx
    · rcases held_update hk with ⟨-,hx⟩ | ⟨-,hk⟩
      · cases hx
      · exact hs.sole j k h hj hk
  live j h hj := by
    rcases held_update hj with ⟨-,hx⟩ | ⟨-,hj⟩
    · cases hx
    · exact hs.live j h hj
  known := hs.known
  safe := hs.safe

theorem Kept.drop (hk : Kept holder log) {i : O} (hi : holder i = none) :
    Kept (Function.update holder i none) log := by
  intro h ha hr
  obtain ⟨j,hj⟩ := hk h ha hr
  have hij : j ≠ i := by
    rintro rfl
    simp [hi] at hj
  exact ⟨j,by simp [hij,hj]⟩

theorem Sound.acquire (hs : Sound holder log) (i : O) {h : H} (hfresh : h ∉ acquired log) :
    Sound (Function.update holder i (some h)) (.acquire h :: log) where
  sole j k x hj hk := by
    have hother : ∀ l, holder l ≠ some h := fun l hl => hfresh (hs.live l h hl).1
    rcases held_update hj with ⟨hji,hx⟩ | ⟨-,hj'⟩
    · cases hx
      rcases held_update hk with ⟨hki,-⟩ | ⟨-,hk'⟩
      · rw [hji,hki]
      · exact absurd hk' (hother k)
    · rcases held_update hk with ⟨-,hy⟩ | ⟨-,hk'⟩
      · cases hy
        exact absurd hj' (hother j)
      · exact hs.sole j k x hj' hk'
  live j x hj := by
    rcases held_update hj with ⟨-,hx⟩ | ⟨-,hj⟩
    · cases hx
      exact ⟨by simp [acquired],fun hr => hfresh (hs.known h hr)⟩
    · exact ⟨List.mem_cons_of_mem _ (hs.live j x hj).1,(hs.live j x hj).2⟩
  known x hx := List.mem_cons_of_mem _ (hs.known x hx)
  safe := hs.safe

theorem Kept.acquire (hk : Kept holder log) {i : O} (hi : holder i = none) (h : H) :
    Kept (Function.update holder i (some h)) (.acquire h :: log) := by
  intro x hx hr
  rcases List.mem_cons.mp hx with rfl | hx
  · exact ⟨i,by simp⟩
  · obtain ⟨j,hj⟩ := hk x hx hr
    have hij : j ≠ i := by
      rintro rfl
      simp [hi] at hj
    exact ⟨j,by simp [hij,hj]⟩

theorem Sound.release (hs : Sound holder log) {i : O} {h : H} (hi : holder i = some h) :
    Sound (Function.update holder i none) (.release h :: log) where
  sole := (hs.drop i).sole
  live j x hj := by
    rcases held_update hj with ⟨-,hx⟩ | ⟨hij,hj⟩
    · cases hx
    · have hne : x ≠ h := fun hx => hij (hs.sole j i h (hx ▸ hj) hi)
      have hlive := hs.live j x hj
      exact ⟨hlive.1,by simp [released,hne,hlive.2]⟩
  known x hx := by
    rcases List.mem_cons.mp hx with rfl | hx
    · exact (hs.live i x hi).1
    · exact hs.known x hx
  safe := ⟨hs.safe,(hs.live i h hi).2⟩

theorem Kept.release (hk : Kept holder log) {i : O} {h : H} (hi : holder i = some h) :
    Kept (Function.update holder i none) (.release h :: log) := by
  intro x hx hr
  simp only [released,List.mem_cons,not_or] at hr
  obtain ⟨j,hj⟩ := hk x hx hr.2
  have hij : j ≠ i := by
    rintro rfl
    exact hr.1 (Option.some.inj (hj.symm.trans hi))
  exact ⟨j,by simp [hij,hj]⟩

theorem Sound.transfer (hs : Sound holder log) (i j : O) :
    Sound (Function.update (Function.update holder i (holder j)) j none) log := by
  have hback : ∀ k h, Function.update (Function.update holder i (holder j)) j none k = some h →
      k = i ∧ holder j = some h ∨ k ≠ i ∧ k ≠ j ∧ holder k = some h := by
    intro k h hk
    rcases held_update hk with ⟨-,hx⟩ | ⟨hkj,hk⟩
    · cases hx
    · rcases held_update hk with ⟨hki,hx⟩ | ⟨hki,hk⟩
      · exact .inl ⟨hki,hx⟩
      · exact .inr ⟨hki,hkj,hk⟩
  refine ⟨fun k l h hk hl => ?_,fun k h hk => ?_,hs.known,hs.safe⟩
  · rcases hback k h hk with ⟨hki,hj⟩ | ⟨-,hkj,hk'⟩
    · rcases hback l h hl with ⟨hli,-⟩ | ⟨-,hlj,hl'⟩
      · rw [hki,hli]
      · exact absurd (hs.sole l j h hl' hj) hlj
    · rcases hback l h hl with ⟨-,hj⟩ | ⟨-,-,hl'⟩
      · exact absurd (hs.sole k j h hk' hj) hkj
      · exact hs.sole k l h hk' hl'
  · rcases hback k h hk with ⟨-,hj⟩ | ⟨-,-,hk⟩
    · exact hs.live j h hj
    · exact hs.live k h hk

theorem Kept.transfer (hk : Kept holder log) {i j : O} (hij : i ≠ j) (hi : holder i = none) :
    Kept (Function.update (Function.update holder i (holder j)) j none) log := by
  intro h ha hr
  obtain ⟨k,hk⟩ := hk h ha hr
  by_cases hkj : k = j
  · subst hkj
    exact ⟨i,by simp [hij,hk]⟩
  · have hki : k ≠ i := by
      rintro rfl
      simp [hi] at hk
    exact ⟨k,by simp [hkj,hki,hk]⟩

/-- A resource that may be null: no event when it is. -/
def nullable (event : H → Event H) (x : Option H) (log : Log H) : Log H :=
  (x.map event).toList ++ log

omit [DecidableEq O] in
theorem Sound.useNullable (hs : Sound holder log) (i : O) :
    Sound holder (nullable .use (holder i) log) := by
  cases hx : holder i with
  | none => exact hs
  | some h => exact hs.use hx

theorem Sound.acquireNullable (hs : Sound holder log) (i : O) {x : Option H}
    (hfresh : ∀ h, x = some h → h ∉ acquired log) :
    Sound (Function.update holder i x) (nullable .acquire x log) := by
  cases x with
  | none => exact hs.drop i
  | some h => exact hs.acquire i (hfresh h rfl)

theorem Sound.releaseNullable (hs : Sound holder log) (i : O) :
    Sound (Function.update holder i none) (nullable .release (holder i) log) := by
  cases hx : holder i with
  | none => exact hs.drop i
  | some h => exact hs.release hx

omit [DecidableEq O] in
theorem kept_useNullable (x : Option H) :
    Kept holder (nullable .use x log) ↔ Kept holder log := by
  cases x <;> exact Iff.rfl

omit [DecidableEq O] in
theorem Kept.useNullable (hk : Kept holder log) (x : Option H) :
    Kept holder (nullable .use x log) := (kept_useNullable x).mpr hk

theorem Kept.acquireNullable (hk : Kept holder log) {i : O} (hi : holder i = none)
    (x : Option H) : Kept (Function.update holder i x) (nullable .acquire x log) := by
  cases x with
  | none => exact hk.drop hi
  | some h => exact hk.acquire hi h

theorem Kept.releaseNullable (hk : Kept holder log) (i : O) :
    Kept (Function.update holder i none) (nullable .release (holder i) log) := by
  cases hx : holder i with
  | none => exact hk.drop hx
  | some h => exact hk.release hx

/-- A fresh resource or none replaces what was held: nothing is lost if nothing was held. -/
theorem Sound.kept_acquireNullable (hs : Sound holder log) (i : O) {x : Option H}
    (hfresh : ∀ h, x = some h → h ∉ acquired log) :
    Kept (Function.update holder i x) (nullable .acquire x log) ↔
      Kept holder log ∧ holder i = none := by
  refine ⟨fun hk => ?_,fun hk => hk.1.acquireNullable hk.2 x⟩
  have hafter : ∀ h ∈ acquired log, h ∉ released log → ∃ j, j ≠ i ∧ holder j = some h := by
    intro h ha hr
    have hkept : ∃ j, Function.update holder i x j = some h := by
      cases x with
      | none => exact hk h ha hr
      | some y => exact hk h (List.mem_cons_of_mem _ ha) hr
    obtain ⟨j,hj⟩ := hkept
    rcases held_update hj with ⟨-,hx⟩ | hj
    · exact absurd ha (hfresh h hx)
    · exact ⟨j,hj⟩
  refine ⟨fun h ha hr => ?_,?_⟩
  · obtain ⟨j,-,hj⟩ := hafter h ha hr
    exact ⟨j,hj⟩
  · cases hi : holder i with
    | none => rfl
    | some h =>
      obtain ⟨j,hij,hj⟩ := hafter h (hs.live i h hi).1 (hs.live i h hi).2
      exact absurd (hs.sole j i h hj hi) hij

theorem kept_releaseNullable (i : O) :
    Kept (Function.update holder i none) (nullable .release (holder i) log) ↔
      Kept holder log := by
  refine ⟨fun hk h ha hr => ?_,fun hk => hk.releaseNullable i⟩
  by_cases hi : holder i = some h
  · exact ⟨i,hi⟩
  have hkept : ∃ j, Function.update holder i none j = some h := by
    cases hx : holder i with
    | none =>
      rw [hx] at hk
      exact hk h ha hr
    | some y =>
      rw [hx] at hk hi
      have hne : h ≠ y := fun hy => hi (hy ▸ rfl)
      exact hk h ha (by simp [nullable,released,hne,hr])
  obtain ⟨j,hj⟩ := hkept
  rcases held_update hj with ⟨-,hx⟩ | ⟨-,hj⟩
  · cases hx
  · exact ⟨j,hj⟩

end Update

theorem Safe.nodup_released (h : Safe log) : (released log).Nodup := by
  induction log with
  | nil => exact List.nodup_nil
  | cons e log ih =>
    cases e with
    | acquire x => exact ih h
    | use x => exact ih h.1
    | release x => exact List.nodup_cons.mpr ⟨h.2,ih h.1⟩

/-- When nobody holds anything, everything has been released. -/
theorem Kept.all_released (hk : Kept holder log) (hnone : ∀ i, holder i = none) :
    ∀ h ∈ acquired log, h ∈ released log := by
  intro h ha
  by_contra hr
  obtain ⟨i,hi⟩ := hk h ha hr
  simp [hnone i] at hi

/-- Every resource is released exactly once, and is not used after that. -/
structure ReleasedOnce [DecidableEq H] (log : Log H) : Prop where
  once : ∀ h ∈ acquired log, (released log).count h = 1
  safe : Safe log

/-- When nobody holds anything, what has been kept is what has been released once. -/
theorem Sound.releasedOnce_iff [DecidableEq H] (hs : Sound holder log)
    (hnone : ∀ i, holder i = none) : ReleasedOnce log ↔ Kept holder log := by
  refine ⟨fun honce h ha hr => ?_,fun hk => ⟨fun h ha => ?_,hs.safe⟩⟩
  · rw [← List.count_eq_zero] at hr
    have := honce.once h ha
    omega
  · exact List.count_eq_one_of_mem hs.safe.nodup_released (hk.all_released hnone h ha)

end Custody
