import AlephSql.AsyncPool

/-! Programs written in callbacks: each callback submits the next operation, if any. In direct style
the same program makes the synchronous calls one after the other and goes on with what it would
have told the callback. -/
namespace AlephSql
namespace AsyncPool

open Transition Sqlite Database CallSteps Delivery

variable {O K : Type}

/-- What a callback submits when it is called with these arguments. -/
abbrev Code (O K : Type) := K → Arguments → Option (Submission O K)

/-- What an operation tells its callback; a failed open asks for the message first. -/
def tells (E : Engine) (R : Residue) (call : Call) (a : Outcome × Db) : Arguments × Db :=
  match a.1 with
  | .opened true => (.opened (openPair true ""),a.2)
  | .opened false => (.opened (openPair false (a.2.errmsg E).1),(a.2.errmsg E).2)
  | .executed r => (.executed (tripleOf R call r),a.2)

abbrev Log (K : Type) := List (K × Arguments)

section Direct

variable [DecidableEq O]

def put (w : World O) (o : O) (db : Db) : World O := (Function.update w.1 o db.self,db.calls)

/-- The program in direct style from the submission `s` on. -/
def runProgram (E : Engine) (R : Residue) (code : Code O K) :
    ℕ → World O → Submission O K → Option (Log K × World O)
  | 0, _, _ => none
  | fuel+1, w, s => (runCall E fuel ⟨w.1 s.self,w.2⟩ s.call).bind fun a =>
      let told := tells E R s.call a
      ((code s.token told.1).elim (some ([],put w s.self told.2))
        (runProgram E R code fuel (put w s.self told.2))).map
          fun rest => ((s.token,told.1) :: rest.1,rest.2)

/-- Where the program stands. -/
inductive Stage (O K : Type)
  | asked (s : Submission O K)
  | calling (s : Submission O K) (p : CallPc)
  | returned (s : Submission O K) (o : Outcome)
  | openFailed (s : Submission O K) (errorMessage : String)
  | answered (token : K) (args : Arguments)
  | inside (token : K) (args : Arguments)

/-- The program with its world and the callbacks called so far; no stage when it has ended. -/
abbrev Standing (O K : Type) := Option (Stage O K) × World O × Log K

/-- The program one action at a time. -/
inductive Proceeds (E : Engine) (R : Residue) (code : Code O K) :
    Standing O K → Unit → Standing O K → Prop
  | call (s w l) : Proceeds E R code (some (.asked s),w,l) () (some (.calling s .start),w,l)
  | api (s p p' w l) (db : Db) (h : callStep E s.call ⟨w.1 s.self,w.2⟩ p = some (db,p')) :
      Proceeds E R code (some (.calling s p),w,l) () (some (.calling s p'),put w s.self db,l)
  | returns (s o w l) :
      Proceeds E R code (some (.calling s (.done o)),w,l) () (some (.returned s o),w,l)
  | errmsg (s w l) :
      Proceeds E R code (some (.returned s (.opened false)),w,l) ()
        (some (.openFailed s (Db.errmsg E ⟨w.1 s.self,w.2⟩).1),
          put w s.self (Db.errmsg E ⟨w.1 s.self,w.2⟩).2,l)
  | opened (s w l) :
      Proceeds E R code (some (.returned s (.opened true)),w,l) ()
        (some (.answered s.token (.opened (openPair true ""))),w,l)
  | failed (s m w l) :
      Proceeds E R code (some (.openFailed s m),w,l) ()
        (some (.answered s.token (.opened (openPair false m))),w,l)
  | executed (s r w l) :
      Proceeds E R code (some (.returned s (.executed r)),w,l) ()
        (some (.answered s.token (.executed (tripleOf R s.call r))),w,l)
  | invoke (k a w l) :
      Proceeds E R code (some (.answered k a),w,l) () (some (.inside k a),w,l ++ [(k,a)])
  | submit (k a s w l) (h : code k a = some s) :
      Proceeds E R code (some (.inside k a),w,l) () (some (.asked s),w,l)
  | finish (k a w l) (h : code k a = none) :
      Proceeds E R code (some (.inside k a),w,l) () (none,w,l)

def program (E : Engine) (R : Residue) (code : Code O K) (w : World O) (first : Submission O K) :
    Lts (Standing O K) Unit where
  init x := x = (some (.asked first),w,[])
  step := Proceeds E R code

end Direct

section Finishes

variable [DecidableEq O] {E : Engine} {R : Residue} {code : Code O K} {fuel fuel' : ℕ}
  {w w' : World O} {l : Log K} {s : Submission O K}

/-- What is left of the program once a callback has been told. -/
def goOn (E : Engine) (R : Residue) (code : Code O K) (fuel : ℕ) (k : K) (a : Arguments)
    (w : World O) : Option (Log K × World O) :=
  ((code k a).elim (some ([],w)) (runProgram E R code fuel w)).map
    fun rest => ((k,a) :: rest.1,rest.2)

theorem runProgram_succ : runProgram E R code (fuel+1) w s =
    (runCall E fuel ⟨w.1 s.self,w.2⟩ s.call).bind fun a =>
      goOn E R code fuel s.token (tells E R s.call a).1 (put w s.self (tells E R s.call a).2) := rfl

theorem goOn_eq_some {k : K} {a : Arguments} : goOn E R code fuel k a w = some (l,w') ↔
    ∃ l', l = (k,a) :: l' ∧
      (code k a).elim (some ([],w)) (runProgram E R code fuel w) = some (l',w') := by
  simp only [goOn,Option.map_eq_some_iff,Prod.mk.injEq]
  constructor
  · rintro ⟨⟨l',v⟩,hrest,hl,rfl⟩
    exact ⟨l',hl.symm,hrest⟩
  · rintro ⟨l',rfl,hrest⟩
    exact ⟨(l',w'),hrest,rfl,rfl⟩

theorem goOn_mono {k : K} {a : Arguments}
    (hrun : ∀ s l, runProgram E R code fuel w s = some (l,w') →
      runProgram E R code fuel' w s = some (l,w'))
    (h : goOn E R code fuel k a w = some (l,w')) : goOn E R code fuel' k a w = some (l,w') := by
  rw [goOn_eq_some] at h ⊢
  obtain ⟨l',hl,hrest⟩ := h
  refine ⟨l',hl,?_⟩
  cases hcode : code k a with
  | none => simpa [hcode] using hrest
  | some s =>
    rw [hcode] at hrest
    exact hrun s l' hrest

theorem runProgram_le (hle : fuel ≤ fuel') (h : runProgram E R code fuel w s = some (l,w')) :
    runProgram E R code fuel' w s = some (l,w') := by
  induction fuel generalizing fuel' w s l with
  | zero => cases h
  | succ fuel ih =>
    obtain ⟨fuel',rfl⟩ := Nat.exists_eq_add_of_le' (Nat.one_le_of_lt hle)
    rw [runProgram_succ,Option.bind_eq_some_iff] at h ⊢
    obtain ⟨a,hcall,hgo⟩ := h
    exact ⟨a,runCall_le (Nat.le_of_succ_le_succ hle) hcall,
      goOn_mono (fun _ _ => ih (Nat.le_of_succ_le_succ hle)) hgo⟩

/-- From this stage and world the program goes on to tell `l` and leaves the world `w'`. -/
def Finishes (E : Engine) (R : Residue) (code : Code O K) (w : World O) (l : Log K)
    (w' : World O) : Option (Stage O K) → Prop
  | none => l = [] ∧ w' = w
  | some (.asked s) => ∃ fuel, runProgram E R code fuel w s = some (l,w')
  | some (.calling s p) => ∃ fuel a, resume E s.call fuel ⟨w.1 s.self,w.2⟩ p = some a ∧
      ∃ fuel', goOn E R code fuel' s.token (tells E R s.call a).1
        (put w s.self (tells E R s.call a).2) = some (l,w')
  | some (.returned s o) => ∃ fuel, goOn E R code fuel s.token
      (tells E R s.call (o,⟨w.1 s.self,w.2⟩)).1
        (put w s.self (tells E R s.call (o,⟨w.1 s.self,w.2⟩)).2) = some (l,w')
  | some (.openFailed s m) => ∃ fuel,
      goOn E R code fuel s.token (.opened (openPair false m)) w = some (l,w')
  | some (.answered k a) => ∃ fuel, goOn E R code fuel k a w = some (l,w')
  | some (.inside k a) => ∃ fuel,
      (code k a).elim (some ([],w)) (runProgram E R code fuel w) = some (l,w')

@[simp] theorem put_self (w : World O) (o : O) : put w o ⟨w.1 o,w.2⟩ = w := by simp [put]

@[simp] theorem put_put (w : World O) (o : O) (db db' : Db) :
    put (put w o db) o db' = put w o db' := by simp [put]

/-- The program from before an action tells what the action tells and then what is told after. -/
theorem proceeds_finishes {st st' : Option (Stage O K)} {v v' : World O} {m m' : Log K}
    (h : Proceeds E R code (st,v,m) () (st',v',m')) (hf : Finishes E R code v' l w' st') :
    ∃ new, m' = m ++ new ∧ Finishes E R code v (new ++ l) w' st := by
  cases h with
  | call s =>
    obtain ⟨fuel,a,hcall,fuel',hgo⟩ := hf
    refine ⟨[],by simp,max fuel fuel'+1,?_⟩
    rw [runProgram_succ,Option.bind_eq_some_iff]
    exact ⟨a,runCall_le (le_max_left _ _) hcall,
      goOn_mono (fun _ _ => runProgram_le (le_max_right _ _)) hgo⟩
  | api s p p' v m db hstep =>
    obtain ⟨fuel,a,hresume,hgo⟩ := hf
    have hself : (⟨(put v s.self db).1 s.self,(put v s.self db).2⟩ : Db) = db := by simp [put]
    rw [hself] at hresume
    obtain ⟨fuel',hbefore⟩ := resume_step hstep hresume
    exact ⟨[],by simp,fuel',a,hbefore,by simpa using hgo⟩
  | returns s o => exact ⟨[],by simp,0,_,rfl,hf⟩
  | errmsg s => exact ⟨[],by simp,hf⟩
  | opened s => exact ⟨[],by simp,by simpa [Finishes,tells] using hf⟩
  | failed s e => exact ⟨[],by simp,hf⟩
  | executed s r => exact ⟨[],by simp,by simpa [Finishes,tells] using hf⟩
  | invoke k a =>
    obtain ⟨fuel,hrest⟩ := hf
    exact ⟨[(k,a)],rfl,fuel,goOn_eq_some.mpr ⟨l,rfl,hrest⟩⟩
  | submit k a s v m hcode =>
    obtain ⟨fuel,hrun⟩ := hf
    exact ⟨[],by simp,fuel,by simpa [hcode] using hrun⟩
  | finish k a v m hcode =>
    obtain ⟨rfl,rfl⟩ := hf
    exact ⟨[],by simp,0,by simp [hcode]⟩

/-- A program that has come to its end has gone through the direct-style run. -/
theorem runProgram_of_ended {w₀ : World O} {first : Submission O K}
    (h : Reachable (program E R code w₀ first) (none,w,l)) :
    ∃ fuel, runProgram E R code fuel w₀ first = some (l,w) := by
  have hback : ∀ x : Standing O K, Reachable (program E R code w₀ first) x →
      ∀ l w', Finishes E R code x.2.1 l w' x.1 →
        ∃ fuel, runProgram E R code fuel w₀ first = some (x.2.2 ++ l,w') := by
    intro x hx
    refine hx.invariant (I := fun x => ∀ l w', Finishes E R code x.2.1 l w' x.1 →
      ∃ fuel, runProgram E R code fuel w₀ first = some (x.2.2 ++ l,w')) ?_ ?_
    · rintro x rfl l w' hf
      exact hf
    · rintro ⟨st,v,m⟩ ⟨⟩ ⟨st',v',m'⟩ - ih - hnext l w' hf
      obtain ⟨new,rfl,hbefore⟩ := proceeds_finishes hnext hf
      simpa using ih (new ++ l) w' hbefore
  simpa using hback _ h [] w ⟨rfl,rfl⟩

end Finishes

end AsyncPool
end AlephSql
