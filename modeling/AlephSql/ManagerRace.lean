import AlephSql.HappensBefore
import AlephSql.Initialisation

/-! Data races for `M_sql_thread_ptr`. The flag of the manager is atomic, the pointer is not: it is
assigned by `init_thread`, read by `get_thread` and read again through the reference that it
returns. -/
namespace AlephSql
namespace Initialisation

open Transition Interleave ThreadManager HappensBefore

/-- What the threads do that bears on the order of their accesses. `tell` and `hear` stand for any
synchronisation outside the manager, such as a mutex or the start of a thread. -/
inductive Action
  | load (value : Bool) | store | construct | assign | read
  | tell | hear (told : ℕ)
  deriving DecidableEq, Repr

abbrev Log (ι : Type) := List (ι × Action)

def action (s : Shared) : Point → Option Action
  | .load => some (.load (s.manager.isThreadCreate == some true))
  | .store => some .store
  | .construct => some .construct
  | .assign _ => some .assign
  | .test _ | .give _ => some .read
  | _ => none

/-- A thread is heard from when it says so, and by the workers of the pool that it constructs. -/
def Action.tells : Action → Bool
  | .tell | .construct => true
  | _ => false

variable {ι : Type}

/-- Runs with the log of their actions. Between their calls the threads may synchronise. -/
inductive Run : Config ι Shared Point → Log ι → Prop
  | init {c} (h : (calls ι).lts.init c) : Run c []
  | step {c d l i} (h : Run c l) (hstep : (calls ι).lts.step c i d) :
      Run d (l ++ ((action c.shared (c.pc i)).map (i,·)).toList)
  | tell {c l i} (h : Run c l) (idle : c.pc i = .idle) : Run c (l ++ [(i,.tell)])
  | hear {c l i a e} (h : Run c l) (idle : c.pc i = .idle) (told : l[a]? = some e)
      (tells : e.2.tells = true) : Run c (l ++ [(i,.hear a)])

/-- Synchronisation by the flag: a load takes its value from the last store before it. -/
def FlagSync (l : Log ι) (a b : ℕ) : Prop :=
  a < b ∧ (∃ i, l[a]? = some (i,.store)) ∧ (∃ j, l[b]? = some (j,.load true)) ∧
    ∀ c k, a < c → c < b → l[c]? ≠ some (k,.store)

def OtherSync (l : Log ι) (a b : ℕ) : Prop := a < b ∧ ∃ j, l[b]? = some (j,.hear a)

def Sync (l : Log ι) (a b : ℕ) : Prop := FlagSync l a b ∨ OtherSync l a b

/-- Accesses of the pointer, one of which assigns it. -/
def Clash : Action → Action → Prop
  | .assign, .assign | .assign, .read | .read, .assign => True
  | _, _ => False

theorem clash_symm {x y : Action} (h : Clash x y) : Clash y x := by
  cases x <;> cases y <;> exact h

def Action.follows : Action → Option Action
  | .store => some (.load false)
  | .construct => some .store
  | .assign => some .construct
  | _ => none

/-- What the log of a run looks like when the run stands at `c`. -/
structure Traced (c : Config ι Shared Point) (l : Log ι) : Prop where
  follows : ∀ b i x y, l[b]? = some (i,x) → x.follows = some y →
    ∃ a, l[a]? = some (i,y) ∧ Previous l a b
  next : ∀ i x y, action c.shared (c.pc i) = some x → x.follows = some y → ∃ a, Last l i a y
  clear : c.shared.manager.isThreadCreate = some false → ∀ (a : ℕ) (i : ι), l[a]? ≠ some (i,.store)
  loads : ∀ (a b : ℕ) (i j : ι), l[a]? = some (i,.store) → l[b]? = some (j,.load false) → b < a

section Steps

variable {s s' t : Shared} {p p' : Point} {x y : Action}

theorem follows_shared (h : action s p = some x) (hx : x.follows = some y) :
    action t p = some x := by
  cases p with
  | load =>
    obtain rfl := Option.some.inj h
    cases hx
  | _ => exact h

theorem step_follows (h : Step s p s' p') (hp : action s' p' = some x) (hx : x.follows = some y) :
    action s p = some y := by
  cases h with
  | loadFalse clear =>
    obtain rfl := Option.some.inj hp
    cases hx
    simp [action,clear]
  | store | construct =>
    obtain rfl := Option.some.inj hp
    exact hx
  | callInit | callGet | testSet =>
    obtain rfl := Option.some.inj hp
    cases hx
  | _ => cases hp

theorem step_clear (h : Step s p s' p') (hclear : s'.manager.isThreadCreate = some false) :
    s.manager.isThreadCreate = some false ∧ action s p ≠ some .store := by
  cases h <;> simp_all [action]

theorem clear_of_load (h : Step s p s' p') (hload : action s p = some (.load false)) :
    s.manager.isThreadCreate = some false := by
  cases h <;> simp_all [action]

end Steps

section Log

variable {c d : Config ι Shared Point} {l : Log ι} {i : ι} {x y : Action} {a b z : ℕ}

theorem Traced.snoc (h : Traced c l) (hx : ∀ y, x.follows = some y → ∃ a, Last l i a y)
    (hload : x = .load false → c.shared.manager.isThreadCreate = some false)
    (hself : ∀ x' y, action d.shared (d.pc i) = some x' → x'.follows = some y → x = y)
    (hothers : ∀ j, j ≠ i → d.pc j = c.pc j)
    (hclear : d.shared.manager.isThreadCreate = some false →
      c.shared.manager.isThreadCreate = some false ∧ x ≠ .store) :
    Traced d (l ++ [(i,x)]) where
  follows b j x' y hb hxy := by
    rcases getElem?_snoc hb with hold | ⟨rfl,heq⟩
    · obtain ⟨a,ha,hprevious⟩ := h.follows b j x' y hold hxy
      exact ⟨a,getElem?_append_of_some ha,hprevious.append⟩
    · obtain ⟨rfl,rfl⟩ := Prod.mk.inj heq
      obtain ⟨a,ha⟩ := hx y hxy
      exact ⟨a,getElem?_append_of_some ha.event,ha.previous⟩
  next j x' y hj hxy := by
    by_cases hji : j = i
    · subst hji
      rw [← hself x' y hj hxy]
      exact ⟨_,last_snoc l j x⟩
    · rw [hothers j hji] at hj
      obtain ⟨a,ha⟩ := h.next j x' y (follows_shared hj hxy) hxy
      exact ⟨a,ha.snoc (Ne.symm hji)⟩
  clear hflag a j ha := by
    obtain ⟨hbefore,hstore⟩ := hclear hflag
    rcases getElem?_snoc ha with hold | ⟨-,heq⟩
    · exact h.clear hbefore a j hold
    · exact hstore (Prod.mk.inj heq).2
  loads a b j k ha hb := by
    rcases getElem?_snoc hb with hold | ⟨rfl,heq⟩
    · rcases getElem?_snoc ha with hstore | ⟨rfl,-⟩
      · exact h.loads a b j k hstore hold
      · exact lt_length hold
    · obtain ⟨rfl,rfl⟩ := Prod.mk.inj heq
      rcases getElem?_snoc ha with hstore | ⟨-,heq'⟩
      · exact absurd hstore (h.clear (hload rfl) a j)
      · cases (Prod.mk.inj heq').2

theorem Traced.synced (h : Traced c l) (idle : c.pc i = .idle) (hx : x.follows = none)
    (hload : x ≠ .load false) (hstore : x ≠ .store) : Traced c (l ++ [(i,x)]) := by
  refine h.snoc (fun y hy => ?_) (fun heq => absurd heq hload) (fun x' y hp => ?_) (fun _ _ => rfl)
    fun hflag => ⟨hflag,hstore⟩
  · rw [hx] at hy
    cases hy
  · rw [idle] at hp
    cases hp

theorem traced (h : Run c l) : Traced c l := by
  induction h with
  | init hinit =>
    obtain ⟨-,hidle⟩ := hinit
    refine ⟨by simp,fun i x y hx => ?_,by simp,by simp⟩
    rw [hidle i] at hx
    cases hx
  | @step c d l i _ hstep ih =>
    obtain ⟨hstep,hframe⟩ := hstep
    cases hx : action c.shared (c.pc i) with
    | none =>
      simp only [Option.map_none,Option.toList_none,List.append_nil]
      refine ⟨ih.follows,fun j x y hj hxy => ?_,fun hflag => ih.clear (step_clear hstep hflag).1,
        ih.loads⟩
      by_cases hji : j = i
      · subst hji
        rw [step_follows hstep hj hxy] at hx
        cases hx
      · rw [hframe j hji] at hj
        exact ih.next j x y (follows_shared hj hxy) hxy
    | some x =>
      refine ih.snoc (fun y hy => ih.next i x y hx hy) (fun hload => ?_) (fun x' y hp hy => ?_)
        hframe fun hflag => ?_
      · exact clear_of_load hstep (by rw [hx,hload])
      · exact Option.some.inj (hx.symm.trans (step_follows hstep hp hy))
      · obtain ⟨hbefore,hstore⟩ := step_clear hstep hflag
        exact ⟨hbefore,fun heq => hstore (by rw [hx,heq])⟩
  | tell _ idle ih => exact ih.synced idle rfl (by simp) (by simp)
  | hear _ idle _ _ ih => exact ih.synced idle rfl (by simp) (by simp)

end Log

section Order

variable {c : Config ι Shared Point} {l : Log ι} {i : ι} {x y : Action} {a b z : ℕ}

theorem Sync.lt (h : Sync l a b) : a < b := h.elim (fun h => h.1) fun h => h.1

theorem Sync.follows (h : Sync l a b) (hb : l[b]? = some (i,x)) : x.follows = none := by
  rcases h with ⟨-,-,⟨j,hj⟩,-⟩ | ⟨-,j,hj⟩
  all_goals
    obtain ⟨rfl,rfl⟩ := Prod.mk.inj (Option.some.inj (hj.symm.trans hb))
    rfl

/-- What happens before an action happens before the one that it follows, or is that one. -/
theorem Traced.back (h : Traced c l) (hb : l[b]? = some (i,x)) (hx : x.follows = some y) :
    ∃ a < b, l[a]? = some (i,y) ∧
      ∀ z, Before l (Sync l) z b → z = a ∨ Before l (Sync l) z a := by
  obtain ⟨a,ha,hprevious⟩ := h.follows b i x y hb hx
  refine ⟨a,hprevious.sequenced.1,ha,fun z hz => hz.previous hprevious fun d hd => ?_⟩
  rw [hd.follows hb] at hx
  cases hx

/-- Nothing that happens after the assignment stores the flag. -/
theorem Traced.not_store (h : Traced c l) (ha : l[a]? = some (i,.assign))
    (hab : Before l (Sync l) a b) (j : ι) : l[b]? ≠ some (j,.store) := by
  intro hb
  obtain ⟨f,-,hf,hback⟩ := h.back hb rfl
  obtain ⟨k,hka,hk,-⟩ := h.back ha rfl
  obtain ⟨s,hsk,hs,-⟩ := h.back hk rfl
  have hfs := h.loads s f i j hs hf
  rcases hback a hab with rfl | haf
  · rw [hf] at ha
    cases ha
  · have hlt := haf.lt fun _ _ => Sync.lt
    omega

theorem Traced.not_load (h : Traced c l) (hb : l[b]? = some (i,.assign))
    (hab : Before l (Sync l) a b) {z : ℕ} (hz : FlagSync l z a) : False := by
  obtain ⟨hza,⟨m,hm⟩,⟨j,hj⟩,-⟩ := hz
  obtain ⟨k,-,hk,hback⟩ := h.back hb rfl
  obtain ⟨s,-,hs,hback'⟩ := h.back hk rfl
  obtain ⟨f,-,hf,hback''⟩ := h.back hs rfl
  have hkeep : ∀ {b x}, l[b]? = some (i,x) → x ≠ .load true → a ≠ b := by
    rintro b x hb hx rfl
    exact hx (Prod.mk.inj (Option.some.inj (hb.symm.trans hj))).2
  have hak := (hback a hab).resolve_left (hkeep hk (by simp))
  have has := (hback' a hak).resolve_left (hkeep hs (by simp))
  have haf := (hback'' a has).resolve_left (hkeep hf (by simp))
  have hlt := haf.lt fun _ _ => Sync.lt
  have hfz := h.loads z f m i hm hf
  omega

theorem Traced.after_assign (h : Traced c l) (ha : l[a]? = some (i,.assign))
    (hab : Before l (Sync l) a b) : Before l (OtherSync l) a b := by
  induction hab with
  | single hstep =>
    refine .single (hstep.imp_right fun hsync => hsync.resolve_left ?_)
    rintro ⟨-,⟨j,hj⟩,-⟩
    rw [ha] at hj
    cases hj
  | tail hbefore hstep ih =>
    refine ih.tail (hstep.imp_right fun hsync => hsync.resolve_left ?_)
    rintro ⟨-,⟨j,hj⟩,-⟩
    exact h.not_store ha hbefore j hj

theorem Traced.before_assign (h : Traced c l) (hb : l[b]? = some (i,.assign))
    (hab : Before l (Sync l) a b) : Before l (OtherSync l) a b := by
  induction hab using Relation.TransGen.head_induction_on with
  | single hstep =>
    refine .single (hstep.imp_right fun hsync => hsync.resolve_left ?_)
    rintro ⟨-,-,⟨j,hj⟩,-⟩
    rw [hb] at hj
    cases hj
  | head hstep hbefore ih =>
    refine .head (hstep.imp_right fun hsync => hsync.resolve_left fun hflag => ?_) ih
    exact h.not_load hb hbefore hflag

theorem Traced.flag_orders_nothing (h : Traced c l) {a b : ℕ} (hab : Conflict l Clash a b) :
    Before l (Sync l) a b ↔ Before l (OtherSync l) a b := by
  refine ⟨fun hbefore => ?_,Before.mono fun _ _ => .inr⟩
  obtain ⟨⟨i,x⟩,⟨j,y⟩,ha,hb,-,hclash⟩ := hab
  cases x with
  | assign => exact h.after_assign ha hbefore
  | read =>
    cases y with
    | assign => exact h.before_assign hb hbefore
    | _ => exact hclash.elim
  | _ => exact hclash.elim

end Order

theorem pointer_races_iff (c : Config ι Shared Point) (l : Log ι) (h : Run c l) :
    (∀ a b, Conflict l Clash a b → (Race l (Sync l) Clash a b ↔
      ¬Before l (OtherSync l) a b ∧ ¬Before l (OtherSync l) b a)) ∧
    ((∀ e ∈ l, ∀ a, e.2 ≠ .hear a) → ∀ a b, Conflict l Clash a b →
      Race l (Sync l) Clash a b) := by
  have hraces : ∀ a b, Conflict l Clash a b → (Race l (Sync l) Clash a b ↔
      ¬Before l (OtherSync l) a b ∧ ¬Before l (OtherSync l) b a) := by
    intro a b hab
    rw [← (traced h).flag_orders_nothing hab,
      ← (traced h).flag_orders_nothing (hab.symm fun _ _ => clash_symm)]
    exact ⟨fun hrace => ⟨hrace.forth,hrace.back⟩,fun ⟨hforth,hback⟩ => ⟨hab,hforth,hback⟩⟩
  refine ⟨hraces,fun hquiet a b hab => (hraces a b hab).mpr ?_⟩
  have hrace : Race l (OtherSync l) Clash a b := hab.race fun a b ⟨_,j,hj⟩ =>
    hquiet _ (List.mem_of_getElem? hj) a rfl
  exact ⟨hrace.forth,hrace.back⟩

section Samples

/-- One thread initialises; another finds the flag set, returns from its own `init_thread` and calls
`get_thread`. -/
def published : Log Bool :=
  [(true,.load false),(true,.store),(true,.construct),(true,.assign),(false,.load true),
    (false,.read)]

def announced : Log Bool :=
  [(true,.load false),(true,.store),(true,.construct),(true,.assign),(true,.tell),(false,.hear 4),
    (false,.read)]

theorem run_move {c : Config Bool Shared Point} {l l' : Log Bool} {s : Shared} {p : Point}
    (h : Run c l) (i : Bool) (hstep : Step c.shared (c.pc i) s p)
    (hl : l ++ ((action c.shared (c.pc i)).map (i,·)).toList = l') : Run (c.move i s p) l' :=
  hl ▸ .step h (Threads.step_move hstep)

def uninitialised : Config Bool Shared Point := ⟨{},fun _ => .idle⟩

def initialised : Config Bool Shared Point :=
  ⟨⟨⟨some true,some 0⟩,1,[0],true,[]⟩,fun _ => .idle⟩

theorem initialised_run : Run initialised (published.take 4) := by
  have hstart : Run uninitialised [] := .init ⟨rfl,fun _ => rfl⟩
  have hcall := run_move hstart true (.callInit _) rfl
  have hload := run_move hcall true (.loadFalse _ rfl) rfl
  have hstore := run_move hload true (.store _) rfl
  have hbuild := run_move hstore true (.construct _) rfl
  have hassign := run_move hbuild true (.assign _ _) rfl
  have hreturn := run_move hassign true (.initReturns _) rfl
  have hback : ∀ s, uninitialised.move true s .idle = ⟨s,fun _ => .idle⟩ :=
    uninitialised.move_pc true
  simp only [Config.move_move,hback,Config.move_shared] at hreturn
  exact hreturn

theorem pointer_races_iff_published :
    Race published (Sync published) Clash 3 5 ∧ ¬Race announced (Sync announced) Clash 3 6 := by
  constructor
  · have hcall := run_move initialised_run false (.callInit _) rfl
    have hload := run_move hcall false (.loadTrue _ rfl) rfl
    have hreturn := run_move hload false (.initReturns _) rfl
    have hget := run_move hreturn false (.callGet _) rfl
    have htest : Run _ published := run_move hget false (.testSet _ true (by decide)) rfl
    have hconflict : Conflict published Clash 3 5 := ⟨_,_,rfl,rfl,by decide,trivial⟩
    exact (pointer_races_iff _ _ htest).2 (by simp [published]) 3 5 hconflict
  · have htell := Run.tell (i := true) initialised_run rfl
    have hhear := Run.hear (i := false) (a := 4) htell rfl rfl rfl
    have hget := run_move hhear false (.callGet _) rfl
    have htest : Run _ announced := run_move hget false (.testSet _ true (by decide)) rfl
    have hconflict : Conflict announced Clash 3 6 := ⟨_,_,rfl,rfl,by decide,trivial⟩
    have htold : Sequenced announced 3 4 := ⟨by decide,_,_,rfl,rfl,rfl⟩
    have hheard : OtherSync announced 4 5 := ⟨by decide,false,rfl⟩
    have hread : Sequenced announced 5 6 := ⟨by decide,_,_,rfl,rfl,rfl⟩
    have hbefore : Before announced (OtherSync announced) 3 6 :=
      ((Relation.TransGen.single (.inl htold)).tail (.inr hheard)).tail (.inl hread)
    exact fun hrace => ((pointer_races_iff _ _ htest).1 3 6 hconflict).mp hrace |>.1 hbefore

end Samples

end Initialisation
end AlephSql
