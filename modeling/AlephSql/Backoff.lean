import AlephSql.RetryLoop
import Mathlib.Tactic.Linarith
import Mathlib.Tactic.Ring

/-! How long `mysql_connect_to_service_retry` sleeps in all. -/
namespace AlephSql
namespace Backoff

open Mysql ConnectionTracking RetryLoop

def sleepOf : Event → ℤ
  | .sleep milliseconds => milliseconds
  | _ => 0

def slept (h : History) : ℤ := (h.map sleepOf).sum

def JitterInBounds (C : Client) : Prop :=
  ∀ h lower upper, lower ≤ upper → lower ≤ C.jitter h lower upper ∧ C.jitter h lower upper ≤ upper

/-- The weight of the pauses before the first `m` rounds; there is none before the first. -/
def weight (m : ℕ) : ℤ := 2^(m-1)-1

section Loop

variable {C : Client} {s : Conn} {l : Login}

@[simp] theorem slept_log (e : Event) : slept (s.log e).calls = slept s.calls + sleepOf e := by
  simp [slept,Conn.log,add_comm]

@[simp] theorem slept_options (o : HandleOption) : slept (s.options o).calls = slept s.calls := by
  simp [Conn.options,sleepOf]

@[simp] theorem slept_realConnect : slept (s.realConnect C l).2.calls = slept s.calls := by
  simp [Conn.realConnect,sleepOf]

@[simp] theorem slept_error : slept (s.error C).2.calls = slept s.calls := by
  simp [Conn.error,sleepOf]

theorem weight_succ (m : ℕ) : weight (m+1) = weight m + if 0 < m then 2^(m-1) else 0 := by
  cases m with
  | zero => rfl
  | succ m =>
    simp only [weight,Nat.add_sub_cancel,Nat.succ_pos,if_true,pow_succ]
    ring

theorem slept_pause (hjitter : JitterInBounds C) (attempt : ℕ) :
    slept s.calls + 50*(weight (attempt+1) - weight attempt) ≤ slept (pause C s attempt).calls ∧
      slept (pause C s attempt).calls ≤
        slept s.calls + 150*(weight (attempt+1) - weight attempt) := by
  by_cases hpos : 0 < attempt
  · have hone : (1:ℤ) ≤ 2^(attempt-1) := one_le_pow₀ (by decide)
    have hdelay : delayMs attempt = 100*2^(attempt-1) := rfl
    obtain ⟨hlower,hupper⟩ := hjitter s.calls (delayMs attempt / 2) (delayMs attempt * 3 / 2)
      (by omega)
    rw [pause,if_pos hpos,slept_log,sleepOf,weight_succ,if_pos hpos]
    omega
  · rw [pause,if_neg hpos,weight_succ,if_neg hpos]
    omega

/-- The rounds from `attempt` on: how many are made, and how long they sleep. -/
theorem slept_retryLoop (hjitter : JitterInBounds C) (rounds attempt : ℕ) :
    ∃ made ≤ rounds,
      attempts (retryLoop C l rounds attempt s).2.calls = attempts s.calls + made ∧
      ((retryLoop C l rounds attempt s).1 = false → made = rounds) ∧
      slept s.calls + 50*(weight (attempt+made) - weight attempt) ≤
        slept (retryLoop C l rounds attempt s).2.calls ∧
      slept (retryLoop C l rounds attempt s).2.calls ≤
        slept s.calls + 150*(weight (attempt+made) - weight attempt) := by
  induction rounds generalizing attempt s with
  | zero =>
    refine ⟨0,le_rfl,rfl,fun _ => rfl,?_⟩
    simp [retryLoop]
  | succ rounds ih =>
    obtain ⟨hlower,hupper⟩ := slept_pause (s := s) hjitter attempt
    unfold retryLoop
    dsimp only
    split
    · refine ⟨1,by omega,by simp,by simp,?_⟩
      rw [slept_realConnect]
      exact ⟨hlower,hupper⟩
    · set failed := ((pause C s attempt).realConnect C l).2.error C
      set next := failed.2.log (.logger .warning ("Retry failed: " ++ failed.1)) with hnext
      have hslept : slept next.calls = slept (pause C s attempt).calls := by
        simp [hnext,failed,sleepOf]
      have hattempts : attempts next.calls = attempts s.calls + 1 := by
        simp [hnext,failed,isRealConnect]
      obtain ⟨made,hle,hmade,hall,hlower',hupper'⟩ := ih (s := next) (attempt+1)
      have hshift : attempt+(made+1) = attempt+1+made := by omega
      rw [hattempts] at hmade
      rw [hslept] at hlower' hupper'
      refine ⟨made+1,by omega,by rw [hmade]; omega,fun hfailed => by rw [hall hfailed],?_⟩
      rw [hshift]
      exact ⟨by linarith,by linarith⟩

end Loop

/-- What a retrying connect has done from `s` to its end: after the first attempt some rounds, all
of them if none succeeds, with the delays of all rounds but the first in range and the time slept
in all between half and one and a half of their sum. -/
def Backed (s : Conn) (count : ℤ) (result : Bool × Conn) : Prop :=
  ∃ rounds ≤ (count+1).toNat,
    attempts result.2.calls = attempts s.calls + (1+rounds) ∧
    (result.1 = false → rounds = (count+1).toNat) ∧
    (∀ k, 0 < k → k < rounds → delay k = some (exactDelay k)) ∧
    50*(2^(rounds-1)-1) ≤ slept result.2.calls - slept s.calls ∧
    slept result.2.calls - slept s.calls ≤ 150*(2^(rounds-1)-1)

theorem total_backoff (C : Client) (hjitter : JitterInBounds C) (s : Conn)
    (hconnectd : s.self.connectd = false) (name : Option String) (flags : UInt64)
    (timeout : UInt32) (count : Int32) (hcount : count.toInt ≤ 23) :
    Backed s count.toInt (mysqlConnectToServiceRetry C s name flags timeout count) ∧
      slept (mysqlConnectToServiceRetry C s name flags timeout count).2.calls ≤
        slept s.calls + 150*(2^count.toInt.toNat-1) := by
  have hbacked :
      Backed s count.toInt (mysqlConnectToServiceRetry C s name flags timeout count) := by
    rw [connectToServiceRetry_eq hconnectd]
    set first := (s.options (.connectTimeout timeout)).realConnect C (s.login name flags)
      with hfirst
    have hattempts : attempts first.2.calls = attempts s.calls + 1 := by simp [hfirst]
    have hslept : slept first.2.calls = slept s.calls := by simp [hfirst]
    dsimp only
    split
    · next hsuccess =>
      refine ⟨0,Nat.zero_le _,hattempts,fun hfailed => ?_,by omega,?_⟩
      · cases hfailed
      · simp [hslept]
    · obtain ⟨made,hle,hmade,hall,hlower,hupper⟩ := slept_retryLoop (s := first.2)
        (l := s.login name flags) hjitter (count.toInt+1).toNat 0
      rw [hattempts] at hmade
      rw [hslept] at hlower hupper
      simp only [weight,Nat.zero_add,Nat.zero_sub,pow_zero] at hlower hupper
      refine ⟨made,hle,by rw [hmade]; omega,hall,fun k hpos hk => delay_eq hpos (by omega),?_,?_⟩
      · linarith
      · linarith
  refine ⟨hbacked,?_⟩
  obtain ⟨rounds,hle,-,-,-,-,hupper⟩ := hbacked
  have hpow : (2:ℤ)^(rounds-1) ≤ 2^count.toInt.toNat :=
    pow_le_pow_right₀ (by decide) (by omega)
  linarith

theorem total_backoff_three :
    Backed configured 3 (mysqlConnectToServiceRetry
      { sampleClient with realConnect := fun _ _ _ => false } configured (some "test") 0 5 3) ∧
    slept (mysqlConnectToServiceRetry { sampleClient with realConnect := fun _ _ _ => false }
      configured (some "test") 0 5 3).2.calls ≤ slept configured.calls + 150*(2^3-1) :=
  total_backoff { sampleClient with realConnect := fun _ _ _ => false }
    (fun _ _ _ h => ⟨le_rfl,h⟩) configured rfl (some "test") 0 5 3 (by decide)

end Backoff
end AlephSql
