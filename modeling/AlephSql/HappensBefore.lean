import Mathlib.Data.List.Basic
import Mathlib.Logic.Relation
import Mathlib.Order.Lattice.Nat

/-! The happens-before order of a run, given by the list of its events with their threads: program
order and synchronisation between positions of the list, and the data races that they leave. -/
namespace HappensBefore

variable {ι α : Type*} {l r : List (ι × α)} {sync sync' : ℕ → ℕ → Prop} {a b c x : ℕ} {i : ι}

def Sequenced (l : List (ι × α)) (a b : ℕ) : Prop :=
  a < b ∧ ∃ e f : ι × α, l[a]? = some e ∧ l[b]? = some f ∧ e.1 = f.1

def Before (l : List (ι × α)) (sync : ℕ → ℕ → Prop) : ℕ → ℕ → Prop :=
  Relation.TransGen fun a b => Sequenced l a b ∨ sync a b

/-- Events of different threads that clash, such as a write and another access. -/
def Conflict (l : List (ι × α)) (clash : α → α → Prop) (a b : ℕ) : Prop :=
  ∃ e f : ι × α, l[a]? = some e ∧ l[b]? = some f ∧ e.1 ≠ f.1 ∧ clash e.2 f.2

/-- A data race: a conflict that happens-before leaves unordered. -/
structure Race (l : List (ι × α)) (sync : ℕ → ℕ → Prop) (clash : α → α → Prop) (a b : ℕ) :
    Prop where
  conflict : Conflict l clash a b
  forth : ¬Before l sync a b
  back : ¬Before l sync b a

structure Previous (l : List (ι × α)) (a b : ℕ) : Prop where
  sequenced : Sequenced l a b
  last : ∀ c, Sequenced l c b → c = a ∨ Sequenced l c a

structure Last (l : List (ι × α)) (i : ι) (a : ℕ) (act : α) : Prop where
  event : l[a]? = some (i,act)
  after : ∀ b e, a < b → l[b]? = some e → e.1 ≠ i

section Order

theorem Sequenced.trans (h : Sequenced l a b) (h' : Sequenced l b c) : Sequenced l a c := by
  obtain ⟨hab,e,f,he,hf,hef⟩ := h
  obtain ⟨hbc,f',g,hf',hg,hfg⟩ := h'
  obtain rfl : f = f' := Option.some.inj (hf.symm.trans hf')
  exact ⟨lt_trans hab hbc,e,g,he,hg,hef.trans hfg⟩

theorem Before.mono (h : ∀ a b, sync a b → sync' a b) (hab : Before l sync a b) :
    Before l sync' a b :=
  Relation.TransGen.mono (fun _ _ hstep => hstep.imp_right (h _ _)) _ _ hab

theorem Before.lt (hsync : ∀ a b, sync a b → a < b) (h : Before l sync a b) : a < b := by
  induction h with
  | single hstep => exact hstep.elim (fun hseq => hseq.1) (hsync _ _)
  | tail _ hstep ih => exact lt_trans ih (hstep.elim (fun hseq => hseq.1) (hsync _ _))

theorem Before.sequenced (hsync : ∀ a b, ¬sync a b) (h : Before l sync a b) :
    Sequenced l a b := by
  induction h with
  | single hstep => exact hstep.resolve_right (hsync _ _)
  | tail _ hstep ih => exact ih.trans (hstep.resolve_right (hsync _ _))

/-- What happens before an event that no synchronisation leads to happens before the previous one
of its thread, or is it. -/
theorem Before.previous (h : Previous l a b) (hsync : ∀ c, ¬sync c b) (hx : Before l sync x b) :
    x = a ∨ Before l sync x a := by
  cases hx with
  | single hstep =>
    exact (h.last x (hstep.resolve_right (hsync x))).imp_right fun hxa => .single (.inl hxa)
  | tail hbefore hstep =>
    rcases h.last _ (hstep.resolve_right (hsync _)) with rfl | hca
    · exact .inr hbefore
    · exact .inr (hbefore.tail (.inl hca))

theorem Conflict.symm {clash : α → α → Prop} (hclash : ∀ x y, clash x y → clash y x)
    (h : Conflict l clash a b) : Conflict l clash b a := by
  obtain ⟨e,f,he,hf,hne,hef⟩ := h
  exact ⟨f,e,hf,he,hne.symm,hclash _ _ hef⟩

theorem Conflict.race {clash : α → α → Prop} (hsync : ∀ a b, ¬sync a b)
    (h : Conflict l clash a b) : Race l sync clash a b := by
  obtain ⟨e,f,he,hf,hne,-⟩ := id h
  have hthread : ∀ {a b : ℕ} {e f : ι × α}, l[a]? = some e → l[b]? = some f → Sequenced l a b →
      e.1 = f.1 := by
    rintro a b e f he hf ⟨-,e',f',he',hf',hef⟩
    obtain rfl : e' = e := Option.some.inj (he'.symm.trans he)
    obtain rfl : f' = f := Option.some.inj (hf'.symm.trans hf)
    exact hef
  exact ⟨h,fun hab => hne (hthread he hf (hab.sequenced hsync)),
    fun hba => hne (hthread hf he (hba.sequenced hsync)).symm⟩

end Order

section Append

theorem getElem?_append_of_some {e : ι × α} (h : l[a]? = some e) : (l ++ r)[a]? = some e := by
  rw [List.getElem?_append_left (List.getElem?_eq_some_iff.mp h).1,h]

theorem getElem?_snoc {e f : ι × α} (h : (l ++ [e])[a]? = some f) :
    l[a]? = some f ∨ a = l.length ∧ e = f := by
  rcases lt_trichotomy a l.length with hlt | rfl | hgt
  · rw [List.getElem?_append_left hlt] at h
    exact .inl h
  · exact .inr ⟨rfl,by simpa using h⟩
  · rw [List.getElem?_eq_none (by simp; omega)] at h
    cases h

theorem lt_length {e : ι × α} (h : l[a]? = some e) : a < l.length :=
  (List.getElem?_eq_some_iff.mp h).1

theorem Sequenced.append (h : Sequenced l a b) : Sequenced (l ++ r) a b := by
  obtain ⟨hab,e,f,he,hf,hef⟩ := h
  exact ⟨hab,e,f,getElem?_append_of_some he,getElem?_append_of_some hf,hef⟩

theorem Sequenced.of_append (h : Sequenced (l ++ r) a b) (hb : b < l.length) :
    Sequenced l a b := by
  obtain ⟨hab,e,f,he,hf,hef⟩ := h
  rw [List.getElem?_append_left (lt_trans hab hb)] at he
  rw [List.getElem?_append_left hb] at hf
  exact ⟨hab,e,f,he,hf,hef⟩

theorem Previous.append (h : Previous l a b) : Previous (l ++ r) a b := by
  obtain ⟨hab,e,f,he,hf,hef⟩ := h.sequenced
  refine ⟨h.sequenced.append,fun c hc => ?_⟩
  exact (h.last c (hc.of_append (lt_length hf))).imp_right Sequenced.append

theorem last_snoc (l : List (ι × α)) (i : ι) (act : α) :
    Last (l ++ [(i,act)]) i l.length act := by
  refine ⟨by simp,fun b e hb he => ?_⟩
  have hlt := lt_length he
  simp at hlt
  omega

theorem Last.snoc {e : ι × α} {act : α} (h : Last l i a act) (he : e.1 ≠ i) :
    Last (l ++ [e]) i a act := by
  refine ⟨getElem?_append_of_some h.event,fun b f hb hf => ?_⟩
  rcases getElem?_snoc hf with hold | ⟨-,rfl⟩
  · exact h.after b f hb hold
  · exact he

theorem Last.previous {act next : α} (h : Last l i a act) :
    Previous (l ++ [(i,next)]) a l.length := by
  have hlt := lt_length h.event
  refine ⟨⟨hlt,_,(i,next),getElem?_append_of_some h.event,by simp,rfl⟩,fun c hc => ?_⟩
  obtain ⟨hcl,e,f,he,hf,hef⟩ := hc
  rw [List.getElem?_append_left hcl] at he
  obtain rfl : (i,next) = f := by simpa using hf
  rcases lt_trichotomy c a with hca | hca | hca
  · exact .inr ⟨hca,e,_,getElem?_append_of_some he,getElem?_append_of_some h.event,hef⟩
  · exact .inl hca
  · exact absurd hef (h.after c e hca he)

end Append

end HappensBefore
