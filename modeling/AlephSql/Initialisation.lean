import AlephSql.Interleave
import AlephSql.ThreadManager

/-! Concurrent calls of `init_thread` and `get_thread` on one manager. Loading the flag,
storing it, constructing the pool and assigning the pointer are four actions. -/
namespace AlephSql
namespace Initialisation

open Transition Interleave ThreadManager

/-- Where a thread stands. A call of `get_thread` remembers whether some `init_thread` had
returned when it started. -/
inductive Point
  | idle
  | load | store | construct | assign (pool : PoolId) | leave | thrown
  | test (after : Bool) | give (after : Bool)
  deriving DecidableEq

structure Finding where
  after : Bool
  pool : Option PoolId
  deriving DecidableEq

/-- The manager, with ghosts: the pools constructed and installed, whether some `init_thread`
has returned, and what the calls of `get_thread` have found. -/
structure Shared where
  manager : Manager := {}
  constructed : ℕ := 0
  installed : List PoolId := []
  initReturned : Bool := false
  found : List Finding := []

inductive Step : Shared → Point → Shared → Point → Prop
  -- init_thread
  | callInit (s) : Step s .idle s .load
  | loadTrue (s) (set : s.manager.isThreadCreate = some true) : Step s .load s .leave
  | loadFalse (s) (clear : s.manager.isThreadCreate = some false) : Step s .load s .store
  | store (s) :
      Step s .store { s with manager := { s.manager with isThreadCreate := some true } } .construct
  | construct (s) :
      Step s .construct { s with constructed := s.constructed+1 } (.assign s.constructed)
  | constructThrows (s) : Step s .construct s .thrown
  | assign (s) (p : PoolId) :
      Step s (.assign p)
        { s with manager := { s.manager with sqlThreadPtr := some p },
                 installed := s.installed ++ [p] } .leave
  | initReturns (s) : Step s .leave { s with initReturned := true } .idle
  | initThrows (s) : Step s .thrown s .idle
  -- get_thread
  | callGet (s) : Step s .idle s (.test s.initReturned)
  | testNull (s) (after : Bool) (null : s.manager.sqlThreadPtr = none) :
      Step s (.test after) { s with found := s.found ++ [⟨after,none⟩] } .idle
  | testSet (s) (after : Bool) (set : s.manager.sqlThreadPtr ≠ none) :
      Step s (.test after) s (.give after)
  | give (s) (after : Bool) :
      Step s (.give after) { s with found := s.found ++ [⟨after,s.manager.sqlThreadPtr⟩] } .idle

def calls (ι : Type) : Threads ι Shared Point where
  init s pc := s = {} ∧ ∀ i, pc i = .idle
  step _ := Step

/-- One pool at most is constructed and installed, the pool that one `get_thread` returns is
returned by all later ones, and those that start after some `init_thread` has returned find
one. -/
structure InitialisedOnce (s : Shared) : Prop where
  constructed : s.constructed ≤ 1
  installed : s.installed.length ≤ 1
  same : s.found.Pairwise fun x y => ∀ p, x.pool = some p → y.pool = some p
  found : ∀ x ∈ s.found, x.after = true → x.pool ≠ none

/-- Between loading a clear flag and assigning the pointer. -/
def Point.initialising : Point → Bool
  | .store | .construct | .assign _ => true
  | _ => false

/-- No construction throws, and the flag is loaded only while no other call stands between
its own load and its assignment. -/
def InTurn {ι : Type} : Guard ι Shared Point := fun c i d =>
  d.pc i ≠ .thrown ∧
    (c.pc i = .load → ∀ j, j ≠ i → (c.pc j).initialising = false)

/-- How far the initialisation has come. -/
inductive Stage
  | fresh | published | built | installed
  deriving DecidableEq

def Stage.manager : Stage → Manager
  | .fresh => {}
  | .published | .built => ⟨some true,none⟩
  | .installed => ⟨some true,some 0⟩

def Stage.constructed : Stage → ℕ
  | .fresh | .published => 0
  | .built | .installed => 1

def Stage.pools : Stage → List PoolId
  | .installed => [0]
  | _ => []

/-- The stage that a thread relies on. -/
def Stage.Supports (g : Stage) : Point → Prop
  | .idle | .load => True
  | .store => g = .fresh
  | .construct => g = .published
  | .assign p => g = .built ∧ p = 0
  | .leave | .give _ => g = .installed
  | .thrown => False
  | .test after => after = true → g = .installed

/-- Findings that fit stage `g`: a pool is found from the last stage on. -/
structure Stage.Fits (g : Stage) (found : List Finding) : Prop where
  finding : ∀ x ∈ found, x = ⟨false,none⟩ ∨ g = .installed ∧ x.pool = some 0
  same : found.Pairwise fun x y => ∀ p, x.pool = some p → y.pool = some p

theorem Stage.Fits.advance {g g' : Stage} {found : List Finding} (h : g.Fits found)
    (hg : g ≠ .installed) : g'.Fits found := by
  refine ⟨fun x hx => ?_,h.same⟩
  rcases h.finding x hx with hx | ⟨hlast,-⟩
  · exact .inl hx
  · exact absurd hlast hg

theorem Stage.Fits.snoc {g : Stage} {found : List Finding} (h : g.Fits found) {x : Finding}
    (hx : g ≠ .installed ∧ x = ⟨false,none⟩ ∨ g = .installed ∧ x.pool = some 0) :
    g.Fits (found ++ [x]) := by
  constructor
  · intro y hy
    rcases List.mem_append.mp hy with hy | hy
    · exact h.finding y hy
    · rw [List.mem_singleton.mp hy]
      exact hx.imp_left And.right
  · rw [List.pairwise_append]
    refine ⟨h.same,List.pairwise_singleton _ _,fun y hy z hz p hp => ?_⟩
    rw [List.mem_singleton.mp hz]
    rcases h.finding y hy with rfl | ⟨hlast,hy0⟩
    · cases hp
    · rcases hx with ⟨hg,-⟩ | ⟨-,hx0⟩
      · exact absurd hlast hg
      · rw [hx0,← hy0,hp]

@[simp] theorem Stage.fits_nil (g : Stage) : g.Fits [] := ⟨by simp,.nil⟩

variable {ι : Type}

/-- The manager is at stage `g`, one thread at most carries the initialisation on, and what
has been found fits the stage. -/
structure AtStage (c : Config ι Shared Point) (g : Stage) : Prop where
  manager : c.shared.manager = g.manager
  constructed : c.shared.constructed = g.constructed
  installed : c.shared.installed = g.pools
  supports : ∀ i, g.Supports (c.pc i)
  sole : ∀ i j, (c.pc i).initialising = true → (c.pc j).initialising = true → i = j
  carried : g = .published ∨ g = .built → ∃ i, (c.pc i).initialising = true
  returned : c.shared.initReturned = true → g = .installed
  found : g.Fits c.shared.found

theorem AtStage.initialisedOnce {c : Config ι Shared Point} {g : Stage} (h : AtStage c g) :
    InitialisedOnce c.shared := by
  constructor
  · rw [h.constructed]
    cases g <;> simp [Stage.constructed]
  · rw [h.installed]
    cases g <;> simp [Stage.pools]
  · exact h.found.same
  · intro x hx hafter
    rcases h.found.finding x hx with rfl | ⟨-,hx0⟩
    · cases hafter
    · simp [hx0]

section Steps

variable {c d : Config ι Shared Point} {g g' : Stage} {i : ι}

theorem supports_of_frame (hframe : ∀ j, j ≠ i → d.pc j = c.pc j)
    (hothers : ∀ j, j ≠ i → g.Supports (c.pc j)) (hi : g.Supports (d.pc i)) (j : ι) :
    g.Supports (d.pc j) := by
  by_cases hj : j = i
  · subst hj
    exact hi
  · rw [hframe j hj]
    exact hothers j hj

theorem only_initialising (hframe : ∀ j, j ≠ i → d.pc j = c.pc j)
    (hothers : ∀ j, j ≠ i → (c.pc j).initialising = false) (j : ι)
    (hinit : (d.pc j).initialising = true) : j = i := by
  by_contra hj
  rw [hframe j hj,hothers j hj] at hinit
  cases hinit

theorem Stage.Supports.advance {p : Point} (h : g.Supports p) (hp : p.initialising = false)
    (hg : g ≠ .installed) : g'.Supports p := by
  cases p with
  | idle | load => trivial
  | store | construct | assign => cases hp
  | leave | give => exact absurd h hg
  | thrown => exact h.elim
  | test after => exact fun hafter => absurd (h hafter) hg

theorem Stage.Supports.not_installed {p : Point} (h : g.Supports p)
    (hp : p.initialising = true) : g ≠ .installed := by
  rintro rfl
  cases p with
  | store | construct => cases h
  | assign => cases h.1
  | _ => cases hp

theorem AtStage.stay (h : AtStage c g) (hframe : ∀ j, j ≠ i → d.pc j = c.pc j)
    (hmanager : d.shared.manager = c.shared.manager)
    (hconstructed : d.shared.constructed = c.shared.constructed)
    (hinstalled : d.shared.installed = c.shared.installed)
    (hphase : (d.pc i).initialising = (c.pc i).initialising) (hi : g.Supports (d.pc i))
    (hreturned : d.shared.initReturned = true → g = .installed)
    (hfound : g.Fits d.shared.found) : AtStage d g := by
  have hsame : ∀ j, (d.pc j).initialising = (c.pc j).initialising := by
    intro j
    by_cases hj : j = i
    · rw [hj,hphase]
    · rw [hframe j hj]
  constructor
  · rw [hmanager,h.manager]
  · rw [hconstructed,h.constructed]
  · rw [hinstalled,h.installed]
  · exact supports_of_frame hframe (fun j _ => h.supports j) hi
  · intro j k hj hk
    exact h.sole j k (by rwa [← hsame j]) (by rwa [← hsame k])
  · intro hg
    obtain ⟨j,hj⟩ := h.carried hg
    exact ⟨j,by rwa [hsame j]⟩
  · exact hreturned
  · exact hfound

theorem AtStage.quiet (h : AtStage c g) (hframe : ∀ j, j ≠ i → d.pc j = c.pc j)
    (hshared : d.shared = c.shared) (hphase : (d.pc i).initialising = (c.pc i).initialising)
    (hi : g.Supports (d.pc i)) : AtStage d g := by
  refine h.stay hframe ?_ ?_ ?_ hphase hi ?_ ?_
  · rw [hshared]
  · rw [hshared]
  · rw [hshared]
  · rw [hshared]
    exact h.returned
  · rw [hshared]
    exact h.found

/-- A step of the thread that carries the initialisation on to stage `g'`. -/
theorem AtStage.advance (h : AtStage c g) (hframe : ∀ j, j ≠ i → d.pc j = c.pc j)
    (hi : (c.pc i).initialising = true) (hmanager : d.shared.manager = g'.manager)
    (hconstructed : d.shared.constructed = g'.constructed)
    (hinstalled : d.shared.installed = g'.pools) (hsupports : g'.Supports (d.pc i))
    (hcarried : (d.pc i).initialising = true ∨ g' = .installed)
    (hreturned : d.shared.initReturned = c.shared.initReturned)
    (hfound : d.shared.found = c.shared.found) : AtStage d g' := by
  have hg : g ≠ .installed := (h.supports i).not_installed hi
  have hothers : ∀ j, j ≠ i → (c.pc j).initialising = false := by
    intro j hj
    by_contra hne
    exact hj (h.sole j i (by simpa using hne) hi)
  have honly := only_initialising hframe hothers
  constructor
  · exact hmanager
  · exact hconstructed
  · exact hinstalled
  · exact supports_of_frame hframe
      (fun j hj => (h.supports j).advance (hothers j hj) hg) hsupports
  · intro j k hj hk
    rw [honly j hj,honly k hk]
  · intro hg'
    rcases hcarried with hinit | rfl
    · exact ⟨i,hinit⟩
    · simp at hg'
  · intro hret
    exact absurd (h.returned (by rwa [← hreturned])) hg
  · rw [hfound]
    exact h.found.advance hg

theorem AtStage.begin (h : AtStage c .fresh) (hframe : ∀ j, j ≠ i → d.pc j = c.pc j)
    (hshared : d.shared = c.shared) (hi : d.pc i = .store)
    (halone : ∀ j, j ≠ i → (c.pc j).initialising = false) : AtStage d .fresh := by
  have honly := only_initialising hframe halone
  constructor
  · rw [hshared,h.manager]
  · rw [hshared,h.constructed]
  · rw [hshared,h.installed]
  · exact supports_of_frame hframe (fun j _ => h.supports j) (by simp [hi,Stage.Supports])
  · intro j k hj hk
    rw [honly j hj,honly k hk]
  · simp
  · rw [hshared]
    exact h.returned
  · rw [hshared]
    exact h.found

theorem AtStage.over (h : AtStage c g) (hset : c.shared.manager.isThreadCreate = some true)
    (hnobody : ∀ j, (c.pc j).initialising = false) : g = .installed := by
  rw [h.manager] at hset
  cases g with
  | fresh => cases hset
  | published | built =>
    obtain ⟨j,hj⟩ := h.carried (by simp)
    rw [hnobody j] at hj
    cases hj
  | installed => rfl

theorem AtStage.clear (h : AtStage c g) (hclear : c.shared.manager.isThreadCreate = some false) :
    g = .fresh := by
  rw [h.manager] at hclear
  cases g with
  | fresh => rfl
  | _ => cases hclear

theorem AtStage.pooled (h : AtStage c g) (hset : c.shared.manager.sqlThreadPtr ≠ none) :
    g = .installed := by
  rw [h.manager] at hset
  cases g with
  | installed => rfl
  | _ => exact absurd rfl hset

theorem atStage_step (h : AtStage c g) (hok : InTurn c i d)
    (hstep : Step c.shared (c.pc i) d.shared (d.pc i)) (hframe : ∀ j, j ≠ i → d.pc j = c.pc j) :
    ∃ g', AtStage d g' := by
  have hself := h.supports i
  generalize hp : c.pc i = p at hstep hself
  generalize hq : d.pc i = q at hstep
  generalize hs : c.shared = s at hstep
  generalize ht : d.shared = t at hstep
  have hreturned := hs ▸ h.returned
  have hfound := hs ▸ h.found
  cases hstep with
  | callInit =>
    exact ⟨g,h.quiet hframe (by rw [ht,hs]) (by rw [hq,hp]; rfl) (by rw [hq]; trivial)⟩
  | loadTrue set =>
    have hnobody : ∀ j, (c.pc j).initialising = false := by
      intro j
      by_cases hj : j = i
      · rw [hj,hp]
        rfl
      · exact hok.2 hp j hj
    have hover := h.over (by rwa [hs]) hnobody
    exact ⟨g,h.quiet hframe (by rw [ht,hs]) (by rw [hq,hp]; rfl) (by rw [hq]; exact hover)⟩
  | loadFalse clear =>
    obtain rfl := h.clear (by rwa [hs])
    exact ⟨.fresh,h.begin hframe (by rw [ht,hs]) hq (hok.2 hp)⟩
  | store =>
    obtain rfl : g = .fresh := hself
    refine ⟨.published,h.advance hframe (by rw [hp]; rfl) ?_ ?_ ?_ (by rw [hq]; rfl)
      (.inl (by rw [hq]; rfl)) (by rw [ht,hs]) (by rw [ht,hs])⟩
    · rw [ht,← hs]
      simp [h.manager,Stage.manager]
    · rw [ht,← hs]
      exact h.constructed
    · rw [ht,← hs]
      exact h.installed
  | construct =>
    obtain rfl : g = .published := hself
    refine ⟨.built,h.advance hframe (by rw [hp]; rfl) ?_ ?_ ?_ ?_
      (.inl (by rw [hq]; rfl)) (by rw [ht,hs]) (by rw [ht,hs])⟩
    · rw [ht,← hs]
      exact h.manager
    · rw [ht,← hs]
      simp [h.constructed,Stage.constructed]
    · rw [ht,← hs]
      exact h.installed
    · rw [hq,← hs]
      exact ⟨rfl,h.constructed⟩
  | constructThrows => exact absurd hq hok.1
  | assign pool =>
    obtain ⟨rfl,rfl⟩ : g = .built ∧ pool = 0 := hself
    refine ⟨.installed,h.advance hframe (by rw [hp]; rfl) ?_ ?_ ?_ (by rw [hq]; rfl)
      (.inr rfl) (by rw [ht,hs]) (by rw [ht,hs])⟩
    · rw [ht,← hs]
      simp [h.manager,Stage.manager]
    · rw [ht,← hs]
      exact h.constructed
    · rw [ht,← hs]
      simp [h.installed,Stage.pools]
  | initReturns =>
    exact ⟨g,h.stay hframe (by rw [ht,hs]) (by rw [ht,hs]) (by rw [ht,hs]) (by rw [hq,hp]; rfl)
      (by rw [hq]; trivial) (fun _ => hself) (by rwa [ht])⟩
  | initThrows => exact hself.elim
  | callGet =>
    exact ⟨g,h.quiet hframe (by rw [ht,hs]) (by rw [hq,hp]; rfl) (by rw [hq]; exact hreturned)⟩
  | testNull after null =>
    have hfresh : g ≠ .installed := by
      rintro rfl
      rw [← hs,h.manager] at null
      cases null
    have hbefore : after = false := by
      by_contra hafter
      exact hfresh (hself (by simpa using hafter))
    refine ⟨g,h.stay hframe (by rw [ht,hs]) (by rw [ht,hs]) (by rw [ht,hs]) (by rw [hq,hp]; rfl)
      (by rw [hq]; trivial) (by rwa [ht]) ?_⟩
    rw [ht,← hs]
    exact h.found.snoc (.inl ⟨hfresh,by rw [hbefore]⟩)
  | testSet after set =>
    have hlast := h.pooled (by rwa [hs])
    exact ⟨g,h.quiet hframe (by rw [ht,hs]) (by rw [hq,hp]; rfl) (by rw [hq]; exact hlast)⟩
  | give after =>
    obtain rfl : g = .installed := hself
    refine ⟨.installed,h.stay hframe (by rw [ht,hs]) (by rw [ht,hs]) (by rw [ht,hs])
      (by rw [hq,hp]; rfl) (by rw [hq]; trivial) (by rwa [ht]) ?_⟩
    rw [ht,← hs]
    exact h.found.snoc (.inr ⟨rfl,by rw [h.manager]; rfl⟩)

end Steps

theorem atStage_reach {c : Config ι Shared Point} (hc : Reach (calls ι).lts InTurn c) :
    ∃ g, AtStage c g := by
  refine hc.invariant (I := fun c => ∃ g, AtStage c g) ?_ ?_
  · rintro c ⟨hs,hpc⟩
    refine ⟨.fresh,?_⟩
    constructor <;> simp [hs,hpc,Stage.manager,Stage.constructed,Stage.pools,Stage.Supports,
      Point.initialising]
  · rintro c i d - ⟨g,h⟩ hok ⟨hstep,hframe⟩
    exact atStage_step h hok hstep hframe

theorem AtStage.sqlThreadPtr_none {c : Config ι Shared Point} {g : Stage} (h : AtStage c g)
    (hg : g ≠ .installed) : c.shared.manager.sqlThreadPtr = none := by
  by_contra hne
  exact hg (h.pooled hne)

section Alone

variable {i : ι}

theorem alone_step {a : Shared × Point} {s s' : Shared} {p p' : Point}
    (h : Alone (calls ι) i a (s,p)) (hstep : Step s p s' p') : Alone (calls ι) i a (s',p') :=
  alone_next h hstep

/-- A call of `init_thread` that nobody interrupts does what `initThread` says. -/
theorem alone_initThread {s : Shared} (hflag : s.manager.isThreadCreate ≠ none) (throws : Bool) :
    ∃ s', Alone (calls ι) i (s,.idle) (s',.idle) ∧
      s'.manager = (initThread s.manager (if throws then none else some s.constructed)).2 := by
  have hload : Alone (calls ι) i (s,.idle) (s,.load) := alone_step .refl (.callInit s)
  rcases hcreate : s.manager.isThreadCreate with - | - | -
  · exact absurd hcreate hflag
  · have hstore := alone_step (alone_step hload (.loadFalse s hcreate)) (.store s)
    cases throws with
    | true =>
      have hthrown := alone_step (alone_step hstore (.constructThrows _)) (.initThrows _)
      exact ⟨_,hthrown,by simp [initThread,hcreate]⟩
    | false =>
      have hassign := alone_step (alone_step hstore (.construct _)) (.assign _ _)
      exact ⟨_,alone_step hassign (.initReturns _),by simp [initThread,hcreate]⟩
  · have hleave := alone_step hload (.loadTrue s hcreate)
    exact ⟨_,alone_step hleave (.initReturns s),by simp [initThread,hcreate]⟩

theorem alone_early {s : Shared} (hptr : s.manager.sqlThreadPtr = none) :
    ∃ s', Alone (calls ι) i (s,.leave) (s',.idle) ∧ ¬InitialisedOnce s' := by
  have hreturned : Alone (calls ι) i (s,.leave) _ := alone_step .refl (.initReturns s)
  have hthrown := alone_step (alone_step hreturned (.callGet _)) (.testNull _ true hptr)
  refine ⟨_,hthrown,fun h => ?_⟩
  exact h.found ⟨true,none⟩ (by simp) rfl rfl

theorem alone_thrown {s : Shared} (hset : s.manager.isThreadCreate = some true)
    (hptr : s.manager.sqlThreadPtr = none) :
    ∃ s', Alone (calls ι) i (s,.thrown) (s',.idle) ∧ ¬InitialisedOnce s' := by
  have hagain : Alone (calls ι) i (s,.thrown) (s,.load) :=
    alone_step (alone_step .refl (.initThrows s)) (.callInit s)
  obtain ⟨s',hearly,hbad⟩ := alone_early (i := i) hptr
  exact ⟨s',(alone_step hagain (.loadTrue s hset)).trans hearly,hbad⟩

theorem alone_construct {s : Shared} :
    ∃ s' p, Alone (calls ι) i (s,.store) (s',p) ∧ s'.constructed = s.constructed+1 := by
  have hstore : Alone (calls ι) i (s,.store) _ := alone_step .refl (.store s)
  exact ⟨_,_,alone_step hstore (.construct _),rfl⟩

end Alone

section Overlap

variable [DecidableEq ι] {c d : Config ι Shared Point} {g : Stage} {i j : ι}

theorem continues_self {s : Shared} {p : Point} (h : Alone (calls ι) i (c.shared,c.pc i) (s,p)) :
    Continues (calls ι).lts anyStep c (c.move i s p) := by
  have hmove : Continues (calls ι).lts anyStep _ _ := continues_alone h c fun _ _ _ => trivial
  simpa [Config.move_pc] using hmove

theorem both_construct (hij : j ≠ i) (hi : d.pc i = .store) (hj : d.pc j = .store) :
    ∃ e, Continues (calls ι).lts anyStep d e ∧ ¬InitialisedOnce e.shared := by
  obtain ⟨s,p,hfirst,hone⟩ := alone_construct (i := j) (s := d.shared)
  obtain ⟨t,q,hsecond,htwo⟩ := alone_construct (i := i) (s := s)
  have hmove : Continues (calls ι).lts anyStep d (d.move j s p) := continues_self (by rwa [hj])
  have hmoves : Continues (calls ι).lts anyStep (d.move j s p) ((d.move j s p).move i t q) :=
    continues_self (by simpa [Ne.symm hij,hi] using hsecond)
  refine ⟨_,hmove.trans hmoves,fun h => ?_⟩
  have hle := h.constructed
  rw [Config.move_shared] at hle
  omega

theorem breaks_alone (h : ∃ s, Alone (calls ι) i (d.shared,d.pc i) (s,.idle) ∧
      ¬InitialisedOnce s) :
    ∃ e, Continues (calls ι).lts anyStep d e ∧ ¬InitialisedOnce e.shared := by
  obtain ⟨s,halone,hbad⟩ := h
  exact ⟨_,continues_self halone,hbad⟩

/-- A step out of turn can be followed by others that break the promise. -/
theorem overlap_breaks (hc : AtStage c g) (h : (calls ι).lts.step c i d) (hok : ¬InTurn c i d) :
    ∃ e, Continues (calls ι).lts anyStep d e ∧ ¬InitialisedOnce e.shared := by
  obtain ⟨hstep,hframe⟩ := h
  replace hstep : Step c.shared (c.pc i) d.shared (d.pc i) := hstep
  have hself := hc.supports i
  by_cases hthrown : d.pc i = .thrown
  · rw [hthrown] at hstep
    generalize hp : c.pc i = p at hstep hself
    generalize ht : d.shared = t at hstep
    cases hstep with
    | constructThrows =>
      obtain rfl : g = .published := hself
      have hmanager := hc.manager
      refine breaks_alone (i := i) ?_
      rw [ht,hthrown]
      exact alone_thrown (by rw [hmanager]; rfl) (by rw [hmanager]; rfl)
  · have hoverlap : c.pc i = .load ∧ ∃ j, j ≠ i ∧ (c.pc j).initialising = true := by
      simp only [InTurn,not_and_or,Classical.not_imp,not_forall,Bool.not_eq_false] at hok
      rcases hok with hok | ⟨hload,j,hj,hinit⟩
      · exact absurd hthrown (by simpa using hok)
      · exact ⟨hload,j,hj,hinit⟩
    obtain ⟨hload,j,hj,hinit⟩ := hoverlap
    rw [hload] at hstep
    have hjsupports := hc.supports j
    have hptr := hc.sqlThreadPtr_none (hjsupports.not_installed hinit)
    generalize hq : d.pc i = q at hstep
    generalize ht : d.shared = t at hstep
    cases hstep with
    | loadTrue set =>
      refine breaks_alone (i := i) ?_
      rw [ht,hq]
      exact alone_early hptr
    | loadFalse clear =>
      obtain rfl := hc.clear clear
      have hjstore : c.pc j = .store := by
        generalize c.pc j = p at hinit hjsupports
        cases p with
        | store => rfl
        | construct => cases hjsupports
        | assign => cases hjsupports.1
        | _ => cases hinit
      exact both_construct hj hq (by rw [hframe j hj,hjstore])

end Overlap

/-- The pool is initialised once throughout the runs in which every flag is loaded in turn and
no construction throws; any other step can be followed by ones that break the promise. -/
theorem pool_initialised_once [DecidableEq ι] :
    (∀ c, Reach (calls ι).lts InTurn c → InitialisedOnce c.shared) ∧
    (∀ c i d, Reach (calls ι).lts InTurn c → (calls ι).lts.step c i d → ¬InTurn c i d →
      ∃ e, Continues (calls ι).lts anyStep d e ∧ ¬InitialisedOnce e.shared) := by
  constructor
  · intro c hc
    obtain ⟨g,h⟩ := atStage_reach hc
    exact h.initialisedOnce
  · intro c i d hc hstep hok
    obtain ⟨g,h⟩ := atStage_reach hc
    exact overlap_breaks h hstep hok

section Samples

variable {c : Config Bool Shared Point} {s : Shared} {p : Point}

theorem reach_any (hc : Reachable (calls Bool).lts c) (i : Bool)
    (h : Step c.shared (c.pc i) s p) : Reachable (calls Bool).lts (c.move i s p) :=
  reach_move hc i h trivial

theorem reach_inTurn (hc : Reach (calls Bool).lts InTurn c) (i : Bool)
    (h : Step c.shared (c.pc i) s p) (hp : p ≠ .thrown)
    (hload : c.pc i = .load → (c.pc !i).initialising = false) :
    Reach (calls Bool).lts InTurn (c.move i s p) := by
  refine reach_move hc i h ⟨by simpa using hp,fun hi j hj => ?_⟩
  obtain rfl : j = !i := by
    cases i <;> cases j <;> simp_all
  exact hload hi

def overlapped : Config Bool Shared Point :=
  (((⟨{},fun _ => .idle⟩ : Config Bool Shared Point).move false {} .load).move true {} .load).move
    true {} .store

theorem overlapped_reach : Reach (calls Bool).lts InTurn overlapped := by
  have hstart : Reach (calls Bool).lts InTurn ⟨{},fun _ => .idle⟩ := .init ⟨rfl,fun _ => rfl⟩
  have hcall := reach_inTurn hstart false (.callInit _) (by decide) (by decide)
  have hother := reach_inTurn hcall true (.callInit _) (by decide) (by decide)
  exact reach_inTurn hother true (.loadFalse _ rfl) (by decide) (by decide)

theorem pool_initialised_once_two_threads : ∃ c d : Config Bool Shared Point,
    c.shared.found = [⟨true,some 0⟩] ∧ InitialisedOnce c.shared ∧
      ∃ e, Continues (calls Bool).lts anyStep d e ∧ ¬InitialisedOnce e.shared := by
  have hstore := reach_inTurn overlapped_reach true (.store _) (by decide) (by decide)
  have hbuild := reach_inTurn hstore true (.construct _) (by decide) (by decide)
  have hassign := reach_inTurn hbuild true (.assign _ _) (by decide) (by decide)
  have hreturn := reach_inTurn hassign true (.initReturns _) (by decide) (by decide)
  have hearly := reach_inTurn hreturn false (.loadTrue _ rfl) (by decide) (by decide)
  have hagain := reach_inTurn hearly false (.initReturns _) (by decide) (by decide)
  have hcall := reach_inTurn hagain false (.callGet _) (by decide) (by decide)
  have htest := reach_inTurn hcall false (.testSet _ _ (by decide)) (by decide) (by decide)
  have hfound := reach_inTurn htest false (.give _ _) (by decide) (by decide)
  have hload : (calls Bool).lts.step overlapped false (overlapped.move false {} .store) :=
    Threads.step_move (Step.loadFalse _ rfl)
  have hbreaks := pool_initialised_once.2 overlapped false _ overlapped_reach hload
    fun h => absurd (h.2 rfl true (by decide)) (by decide)
  exact ⟨_,_,rfl,pool_initialised_once.1 _ hfound,hbreaks⟩

/-- Two threads load the flag before either stores it: two pools are constructed. One loads it
after the other has stored it: its `init_thread` returns, and its `get_thread` finds no pool. -/
theorem two_pools_or_none :
    (∃ c : Config Bool Shared Point, Reachable (calls Bool).lts c ∧ c.shared.constructed = 2 ∧
      ¬InitialisedOnce c.shared) ∧
    (∃ c : Config Bool Shared Point, Reachable (calls Bool).lts c ∧
      c.shared.found = [⟨true,none⟩] ∧ ¬InitialisedOnce c.shared) := by
  have hstart : Reachable (calls Bool).lts overlapped := overlapped_reach.reachable
  constructor
  · have hload := reach_any hstart false (.loadFalse _ rfl)
    have hfirst := reach_any (reach_any hload false (.store _)) false (.construct _)
    have hsecond := reach_any (reach_any hfirst true (.store _)) true (.construct _)
    exact ⟨_,hsecond,rfl,fun h => absurd h.constructed (by decide)⟩
  · have hstore := reach_any hstart true (.store _)
    have hearly := reach_any (reach_any hstore false (.loadTrue _ rfl)) false (.initReturns _)
    have hfound := reach_any (reach_any hearly false (.callGet _)) false (.testNull _ _ rfl)
    exact ⟨_,hfound,rfl,fun h => h.found ⟨true,none⟩ (by decide) rfl rfl⟩

end Samples

end Initialisation
end AlephSql
