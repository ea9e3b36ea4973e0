import Mathlib.Data.Multiset.Count
import Mathlib.Data.Multiset.AddSub
import Mathlib.Data.List.Nodup

/-! Objects behind counted references. An object is destroyed when its last reference is
released; the rules below keep the counters in agreement with the references that exist. -/
namespace SharedOwnership

/-- The counter of every object, and the objects created and destroyed so far. -/
structure Counters (O : Type*) where
  count : O → ℕ
  created : List O
  destroyed : List O

variable {O : Type*}

def Counters.empty : Counters O := ⟨fun _ => 0,[],[]⟩

section Operations

variable [DecidableEq O]

def create (c : Counters O) (o : O) : Counters O :=
  { c with count := Function.update c.count o 1, created := c.created ++ [o] }

def retain (c : Counters O) (o : O) : Counters O :=
  { c with count := Function.update c.count o (c.count o+1) }

/-- One reference less; the last one takes the object with it. -/
def release (c : Counters O) (o : O) : Counters O :=
  { c with
    count := Function.update c.count o (c.count o-1)
    destroyed := if c.count o = 1 then c.destroyed ++ [o] else c.destroyed }

def retainAll (c : Counters O) (os : List O) : Counters O := os.foldl retain c

def releaseAll (c : Counters O) (os : List O) : Counters O := os.foldl release c

/-- `refs` are all the references there are. Every object created is referred to or has been
destroyed, and not both. -/
structure Counted (c : Counters O) (refs : Multiset O) : Prop where
  count : ∀ o, c.count o = refs.count o
  created : ∀ o ∈ refs, o ∈ c.created
  gone : ∀ o ∈ c.destroyed, o ∉ refs ∧ o ∈ c.created
  kept : ∀ o ∈ c.created, o ∈ refs ∨ o ∈ c.destroyed
  once : c.destroyed.Nodup

variable {c : Counters O} {refs : Multiset O} {o : O}

theorem counted_empty : Counted (Counters.empty : Counters O) 0 :=
  ⟨fun _ => by simp [Counters.empty],by simp,by simp [Counters.empty],by simp [Counters.empty],
    by simp [Counters.empty]⟩

theorem Counted.alive (h : Counted c refs) (ho : o ∈ refs) : 0 < c.count o ∧ o ∉ c.destroyed := by
  refine ⟨?_,fun hgone => (h.gone o hgone).1 ho⟩
  rw [h.count]
  exact Multiset.count_pos.mpr ho

theorem Counted.mem_of_count (h : Counted c refs) (ho : 0 < c.count o) : o ∈ refs := by
  rw [h.count] at ho
  exact Multiset.count_pos.mp ho

theorem Counted.destroyed (h : Counted c 0) (ho : o ∈ c.created) : c.destroyed.count o = 1 := by
  have hgone := (h.kept o ho).resolve_left (Multiset.notMem_zero o)
  exact List.count_eq_one_of_mem h.once hgone

theorem Counted.create (h : Counted c refs) (new : o ∉ c.created) :
    Counted (create c o) (o ::ₘ refs) := by
  have hnone : o ∉ refs := fun ho => new (h.created o ho)
  refine ⟨fun x => ?_,fun x hx => ?_,fun x hx => ?_,fun x hx => ?_,h.once⟩
  · by_cases hxo : x = o
    · subst hxo
      simp [SharedOwnership.create,Multiset.count_eq_zero_of_notMem hnone]
    · simp [SharedOwnership.create,hxo,h.count]
  · rcases Multiset.mem_cons.mp hx with rfl | hx
    · simp [SharedOwnership.create]
    · exact List.mem_append_left _ (h.created x hx)
  · obtain ⟨hout,hin⟩ := h.gone x hx
    refine ⟨fun hmem => ?_,List.mem_append_left _ hin⟩
    rcases Multiset.mem_cons.mp hmem with rfl | hmem
    · exact new hin
    · exact hout hmem
  · rcases List.mem_append.mp hx with hx | hx
    · exact (h.kept x hx).imp_left (Multiset.mem_cons_of_mem)
    · exact .inl (List.mem_singleton.mp hx ▸ Multiset.mem_cons_self _ _)

theorem Counted.retain (h : Counted c refs) (held : o ∈ refs) :
    Counted (retain c o) (o ::ₘ refs) := by
  have hmem : ∀ x, x ∈ o ::ₘ refs ↔ x ∈ refs := fun x => by
    rw [Multiset.mem_cons]
    exact ⟨fun hx => hx.elim (fun hxo => hxo ▸ held) id,.inr⟩
  refine ⟨fun x => ?_,fun x hx => h.created x ((hmem x).mp hx),fun x hx => ?_,fun x hx => ?_,
    h.once⟩
  · by_cases hxo : x = o
    · subst hxo
      simp [SharedOwnership.retain,h.count]
    · simp [SharedOwnership.retain,hxo,h.count]
  · rw [hmem]
    exact h.gone x hx
  · rw [hmem]
    exact h.kept x hx

theorem Counted.release (h : Counted c (o ::ₘ refs)) : Counted (release c o) refs := by
  have hcount : c.count o = refs.count o+1 := by simp [h.count]
  have hlast : c.count o = 1 ↔ o ∉ refs := by
    rw [hcount,← Multiset.count_eq_zero]
    omega
  have hmem : ∀ x, x ∈ (SharedOwnership.release c o).destroyed ↔
      x ∈ c.destroyed ∨ (x = o ∧ o ∉ refs) := by
    intro x
    rw [← hlast]
    simp only [SharedOwnership.release]
    split <;> simp_all
  refine ⟨fun x => ?_,fun x hx => h.created x (Multiset.mem_cons_of_mem hx),fun x hx => ?_,
    fun x hx => ?_,?_⟩
  · by_cases hxo : x = o
    · subst hxo
      simp [SharedOwnership.release,hcount]
    · simp [SharedOwnership.release,hxo,h.count]
  · rcases (hmem x).mp hx with hx | ⟨rfl,hout⟩
    · obtain ⟨hout,hin⟩ := h.gone x hx
      exact ⟨fun hx => hout (Multiset.mem_cons_of_mem hx),hin⟩
    · exact ⟨hout,h.created x (Multiset.mem_cons_self _ _)⟩
  · rw [hmem]
    rcases h.kept x hx with hx | hx
    · rcases Multiset.mem_cons.mp hx with rfl | hx
      · exact or_iff_not_imp_left.mpr fun hout => .inr ⟨rfl,hout⟩
      · exact .inl hx
    · exact .inr (.inl hx)
  · simp only [SharedOwnership.release]
    split
    · have hfresh : o ∉ c.destroyed := (h.alive (Multiset.mem_cons_self _ _)).2
      exact List.Nodup.append h.once (List.nodup_singleton o) (by simpa using hfresh)
    · exact h.once

theorem Counted.retainAll (h : Counted c refs) {os : List O} (held : ∀ o ∈ os, o ∈ refs) :
    Counted (retainAll c os) (os+refs) := by
  induction os generalizing c refs with
  | nil => simpa [SharedOwnership.retainAll] using h
  | cons o os ih =>
    have hone := h.retain (held o List.mem_cons_self)
    have hall := ih hone fun x hx => Multiset.mem_cons_of_mem (held x (List.mem_cons_of_mem _ hx))
    have hsame : ((o :: os : List O) : Multiset O)+refs = os+(o ::ₘ refs) := by
      rw [← Multiset.cons_coe,Multiset.cons_add,Multiset.add_cons]
    rw [hsame]
    exact hall

theorem Counted.releaseAll {os : List O} (h : Counted c (os+refs)) :
    Counted (releaseAll c os) refs := by
  induction os generalizing c with
  | nil => simpa [SharedOwnership.releaseAll] using h
  | cons o os ih =>
    rw [← Multiset.cons_coe,Multiset.cons_add] at h
    exact ih h.release

end Operations

end SharedOwnership
