import AlephSql.ConnectionTracking
import Mathlib.Algebra.Order.Ring.Int
import Mathlib.Data.Nat.Notation
import Mathlib.Logic.Function.Iterate
import Mathlib.Order.Basic

/-! The loop of `mysql_connect_to_service_retry`: how many attempts it makes, and what the delays
between them come to in 32-bit arithmetic. Attempts within a budget end with the first success, or
are given up once the budget is used up. -/
namespace Retry

/-- Of the attempts that `budget` allows `made` are made, and the last one ends in `success`. -/
structure Tries (outcomes : ℕ → Bool) (budget made : ℕ) (success : Bool) : Prop where
  within : made ≤ budget
  stops : ∀ k, k+1 < made → outcomes k = false
  succeeds : success = true ↔ ∃ k < made, outcomes k = true
  exhausts : success = false → made = budget

variable {outcomes : ℕ → Bool} {n made : ℕ} {success : Bool}

theorem Tries.nothing : Tries outcomes 0 0 false := by
  constructor <;> simp

theorem Tries.hit (h : outcomes 0 = true) : Tries outcomes (n+1) 1 true where
  within := Nat.le_add_left 1 n
  stops k hk := by omega
  succeeds := iff_of_true rfl ⟨0,Nat.one_pos,h⟩
  exhausts := by simp

theorem Tries.miss (h : outcomes 0 = false)
    (ht : Tries (fun k => outcomes (k+1)) n made success) :
    Tries outcomes (n+1) (made+1) success where
  within := Nat.succ_le_succ ht.within
  stops k hk := by
    cases k with
    | zero => exact h
    | succ k => exact ht.stops k (by omega)
  succeeds := by
    rw [ht.succeeds]
    constructor
    · rintro ⟨k,hk,hsuccess⟩
      exact ⟨k+1,by omega,hsuccess⟩
    · rintro ⟨k,hk,hsuccess⟩
      cases k with
      | zero =>
        rw [h] at hsuccess
        cases hsuccess
      | succ k => exact ⟨k,by omega,hsuccess⟩
  exhausts hfailed := by rw [ht.exhausts hfailed]

theorem Tries.made_le (h : Tries outcomes n made success) {k : ℕ} (hk : outcomes k = true) :
    made ≤ k+1 := by
  by_contra hlater
  have hfailed := h.stops k (by omega)
  rw [hk] at hfailed
  cases hfailed

/-- What has been done with one attempt more could have been done without it exactly if an
attempt within the smaller budget succeeds. -/
theorem Tries.shorten_iff (h : Tries outcomes (n+1) made success) :
    Tries outcomes n made success ↔ ∃ k < n, outcomes k = true := by
  constructor
  · intro hshort
    by_cases hsuccess : success = true
    · obtain ⟨k,hk,hk'⟩ := h.succeeds.mp hsuccess
      have hwithin := hshort.within
      exact ⟨k,by omega,hk'⟩
    · have hfailed : success = false := by simpa using hsuccess
      have hmade := h.exhausts hfailed
      have hless := hshort.exhausts hfailed
      omega
  · rintro ⟨k,hk,hk'⟩
    have hmade := h.made_le hk'
    have hsuccess : success = true := by
      by_contra hnot
      have hall := h.exhausts (by simpa using hnot)
      omega
    refine ⟨by omega,h.stops,h.succeeds,fun hfailed => ?_⟩
    rw [hsuccess] at hfailed
    cases hfailed

end Retry

namespace AlephSql
namespace RetryLoop

open Mysql ConnectionTracking Retry

section Count

/-- A library whose attempts, counted from `base` on, end as `outcomes` says. -/
def answering (C : Client) (outcomes : ℕ → Bool) (base : ℕ) : Client :=
  { C with realConnect := fun h _ _ => outcomes (attempts h - base) }

variable {C : Client} {outcomes : ℕ → Bool} {base m : ℕ} {s : Conn} {l : Login}

theorem realConnect_answering (hs : attempts s.calls = base+m) :
    (s.realConnect (answering C outcomes base) l).1 = outcomes m := by
  have hm : attempts s.calls - base = m := by omega
  simp only [Conn.realConnect,answering,hm]

theorem retryLoop_tries (hs : attempts s.calls = base+m) (rounds attempt : ℕ) :
    ∃ made, attempts (retryLoop (answering C outcomes base) l rounds attempt s).2.calls =
        base+m+made ∧
      Tries (fun k => outcomes (m+k)) rounds made
        (retryLoop (answering C outcomes base) l rounds attempt s).1 := by
  induction rounds generalizing m attempt s with
  | zero => exact ⟨0,hs,.nothing⟩
  | succ rounds ih =>
    have hpaused : attempts (pause (answering C outcomes base) s attempt).calls = base+m := by
      rw [attempts_pause,hs]
    have hanswer : ((pause (answering C outcomes base) s attempt).realConnect
        (answering C outcomes base) l).1 = outcomes m := realConnect_answering hpaused
    have hmade : attempts ((pause (answering C outcomes base) s attempt).realConnect
        (answering C outcomes base) l).2.calls = base+(m+1) := by
      rw [attempts_realConnect,hpaused]
      omega
    unfold retryLoop
    dsimp only
    rw [hanswer]
    by_cases hsuccess : outcomes m = true
    · rw [if_pos hsuccess]
      exact ⟨1,by rw [hmade]; omega,.hit hsuccess⟩
    · rw [if_neg hsuccess]
      have hshift : (fun k => outcomes (m+1+k)) = fun k => outcomes (m+(k+1)) :=
        funext fun k => congrArg outcomes (by omega)
      let next := (((pause (answering C outcomes base) s attempt).realConnect
        (answering C outcomes base) l).2.error (answering C outcomes base))
      have hnext : attempts (next.2.log (.logger .warning ("Retry failed: " ++ next.1))).calls =
          base+(m+1) := by
        simp [next,isRealConnect,hmade]
      obtain ⟨made,hafter,htries⟩ := ih hnext (attempt+1)
      rw [hshift] at htries
      exact ⟨made+1,by rw [hafter]; omega,.miss (by simpa using hsuccess) htries⟩

theorem connectRetry_tries (hconnectd : s.self.connectd = false) (name : Option String)
    (flags : UInt64) (timeout : UInt32) {count : Int32} (hcount : 0 ≤ count.toInt) :
    Tries outcomes (count.toInt.toNat+1+1)
      (attempts (mysqlConnectToServiceRetry (answering C outcomes (attempts s.calls)) s name flags
        timeout count).2.calls - attempts s.calls)
      (mysqlConnectToServiceRetry (answering C outcomes (attempts s.calls)) s name flags timeout
        count).1 := by
  let first := (s.options (.connectTimeout timeout)).realConnect
    (answering C outcomes (attempts s.calls)) (s.login name flags)
  have hcall : mysqlConnectToServiceRetry (answering C outcomes (attempts s.calls)) s name flags
      timeout count =
        if first.1 then (true,first.2)
        else retryLoop (answering C outcomes (attempts s.calls)) (s.login name flags)
          (count.toInt+1).toNat 0 first.2 :=
    connectToServiceRetry_eq hconnectd name flags timeout count
  have hanswer : first.1 = outcomes 0 := realConnect_answering (attempts_options _)
  have hmade : attempts first.2.calls = attempts s.calls+1 := by
    rw [attempts_realConnect,attempts_options]
  rw [hcall,hanswer]
  by_cases hsuccess : outcomes 0 = true
  · rw [if_pos hsuccess,hmade,Nat.add_sub_cancel_left]
    exact .hit hsuccess
  · rw [if_neg hsuccess]
    obtain ⟨made,hafter,htries⟩ := retryLoop_tries (l := s.login name flags) hmade
      (count.toInt+1).toNat 0
    have hrounds : (count.toInt+1).toNat = count.toInt.toNat+1 := by omega
    have hshift : (fun k => outcomes (1+k)) = fun k => outcomes (k+1) :=
      funext fun k => congrArg outcomes (by omega)
    have hnumber : attempts s.calls+1+made - attempts s.calls = made+1 := by omega
    rw [hafter,hnumber]
    rw [hrounds,hshift] at htries
    rw [hrounds]
    exact .miss (by simpa using hsuccess) htries

end Count

/-- The connect makes its attempts within one more than the retries asked for if and only if one
of these attempts succeeds; otherwise it makes another one. -/
theorem retries_as_asked_iff (C : Client) (outcomes : ℕ → Bool) (s : Conn)
    (hconnectd : s.self.connectd = false) (name : Option String) (flags : UInt64) (timeout : UInt32)
    (count : Int32) (hcount : 0 ≤ count.toInt) :
    Tries outcomes (count.toInt.toNat+1)
      (attempts (mysqlConnectToServiceRetry (answering C outcomes (attempts s.calls)) s name flags
        timeout count).2.calls - attempts s.calls)
      (mysqlConnectToServiceRetry (answering C outcomes (attempts s.calls)) s name flags timeout
        count).1 ↔
    ∃ k < count.toInt.toNat+1, outcomes k = true :=
  (connectRetry_tries hconnectd name flags timeout hcount).shorten_iff

def configured : Conn := perform sampleClient constructed .optionsConfigure

theorem retries_as_asked_iff_third :
    Tries (· == 2) 3
      (attempts (mysqlConnectToServiceRetry (answering sampleClient (· == 2) 0) configured
        (some "test") 0 5 2).2.calls - 0)
      (mysqlConnectToServiceRetry (answering sampleClient (· == 2) 0) configured (some "test") 0 5
        2).1 :=
  (retries_as_asked_iff sampleClient (· == 2) configured rfl (some "test") 0 5 2 (by decide)).mpr
    ⟨2,by decide⟩

/-- No retry is asked for, and one is made. -/
theorem one_retry_too_many :
    attempts (mysqlConnectToServiceRetry (answering sampleClient (fun _ => false) 0) configured
      (some "test") 0 5 0).2.calls = 2 ∧
    ¬Tries (fun _ => false) 1
      (attempts (mysqlConnectToServiceRetry (answering sampleClient (fun _ => false) 0) configured
        (some "test") 0 5 0).2.calls - 0)
      (mysqlConnectToServiceRetry (answering sampleClient (fun _ => false) 0) configured
        (some "test") 0 5 0).1 := by
  have hmade : attempts (mysqlConnectToServiceRetry (answering sampleClient (fun _ => false) 0)
      configured (some "test") 0 5 0).2.calls = 2 := by decide
  refine ⟨hmade,fun h => ?_⟩
  have hwithin := h.within
  omega

section Arithmetic

/-- The value of an `int` expression, if it is in range. -/
def int32 (x : ℤ) : Option ℤ :=
  if -2147483648 ≤ x ∧ x ≤ 2147483647 then some x else none

def shiftLeft (x k : ℤ) : Option ℤ := if 0 ≤ k ∧ k < 32 then int32 (x*2^k.toNat) else none

theorem int32_eq {x : ℤ} (hlo : 0 ≤ x) (hhi : x ≤ 2147483647) : int32 x = some x := by
  rw [int32,if_pos]
  omega

/-- A delay with the bounds of its jitter. -/
structure Delay where
  delayMs : ℤ
  lower : ℤ
  upper : ℤ
  deriving DecidableEq, Repr

/-- `delay_ms` and the bounds of `dist`, operation by operation; nothing when one overflows. -/
def delay (attempt : ℤ) : Option Delay :=
  (int32 (attempt-1)).bind fun previous =>
  (shiftLeft 1 previous).bind fun power =>
  (int32 (100*power)).bind fun delayMs =>
  (int32 (delayMs*3)).map fun tripled => ⟨delayMs,delayMs.tdiv 2,tripled.tdiv 2⟩

structure Vars where
  attempt : ℤ := 0
  retryCount : ℤ := 0
  delays : List Delay := []
  deriving DecidableEq, Repr

def round (v : Vars) : Option Vars :=
  (int32 (v.retryCount+1)).bind fun retryCount =>
  (if 0 < v.attempt then (delay v.attempt).map fun x => v.delays ++ [x]
    else some v.delays).bind fun delays =>
  (int32 (v.attempt+1)).map fun attempt => ⟨attempt,retryCount,delays⟩

inductive Loop
  | running (v : Vars)
  | ended (v : Vars)
  | undefined
  deriving DecidableEq, Repr

def next (mysqlMaxRetryCount : ℤ) : Loop → Loop
  | .running v =>
    if v.attempt ≤ mysqlMaxRetryCount then (round v).elim .undefined .running else .ended v
  | x => x

/-- No operation of the loop overflows, the bounds of every jitter are in order, the delays do
not decrease, and the loop ends. -/
structure InRange (mysqlMaxRetryCount : ℤ) : Prop where
  defined : ∀ k, (next mysqlMaxRetryCount)^[k] (.running {}) ≠ .undefined
  bounds : ∀ k v, (next mysqlMaxRetryCount)^[k] (.running {}) = .running v →
    ∀ x ∈ v.delays, 0 ≤ x.lower ∧ x.lower ≤ x.upper
  grows : ∀ k v, (next mysqlMaxRetryCount)^[k] (.running {}) = .running v →
    v.delays.Pairwise fun x y => x.delayMs ≤ y.delayMs
  ends : ∃ k v, (next mysqlMaxRetryCount)^[k] (.running {}) = .ended v

/-- The delay before attempt `k` of the loop, in exact arithmetic. -/
def exactDelay (k : ℕ) : Delay := ⟨delayMs k,delayMs k / 2,delayMs k * 3 / 2⟩

theorem delayMs_mono {j k : ℕ} (h : j ≤ k) : delayMs j ≤ delayMs k := by
  have hpow : (2:ℤ)^(j-1) ≤ 2^(k-1) := pow_le_pow_right₀ (by decide) (by omega)
  unfold delayMs
  omega

theorem delayMs_nonneg (k : ℕ) : 0 ≤ delayMs k :=
  le_trans (by decide) (delayMs_mono (Nat.zero_le k))

/-- Up to the 23rd delay the arithmetic is exact. -/
theorem delay_eq {k : ℕ} (hpos : 0 < k) (hle : k ≤ 23) : delay k = some (exactDelay k) := by
  have hliteral : (2:ℤ)^22 = 4194304 := by decide
  have hpow : (2:ℤ)^(k-1) ≤ 2^22 := pow_le_pow_right₀ (by decide) (by omega)
  rw [hliteral] at hpow
  have hone : (1:ℤ) ≤ 2^(k-1) := one_le_pow₀ (by decide)
  have hprevious : int32 (k-1) = some ((k:ℤ)-1) := int32_eq (by omega) (by omega)
  have hshift : ((k:ℤ)-1).toNat = k-1 := by omega
  have hpower : shiftLeft 1 ((k:ℤ)-1) = some (2^(k-1)) := by
    rw [shiftLeft,if_pos (by omega),hshift,one_mul]
    exact int32_eq (by omega) (by omega)
  have hdelay : int32 (100*2^(k-1)) = some (delayMs k) := int32_eq (by omega) (by omega)
  have htripled : int32 (delayMs k*3) = some (delayMs k*3) := by
    unfold delayMs
    exact int32_eq (by omega) (by omega)
  have hnonneg := delayMs_nonneg k
  simp only [delay,hprevious,hpower,hdelay,htripled,Option.bind_some,Option.map_some,exactDelay]
  rw [Int.tdiv_eq_ediv_of_nonneg hnonneg,Int.tdiv_eq_ediv_of_nonneg (by omega)]

def varsAfter (k : ℕ) : Vars := ⟨k,k,(List.range' 1 (k-1)).map exactDelay⟩

theorem round_eq {k : ℕ} (hle : k ≤ 23) : round (varsAfter k) = some (varsAfter (k+1)) := by
  have hnext : int32 ((k:ℤ)+1) = some ((k:ℤ)+1) := int32_eq (by omega) (by omega)
  cases k with
  | zero => decide
  | succ k =>
    have hdelay := delay_eq (Nat.succ_pos k) hle
    have hconcat : List.range' 1 (k+1) = List.range' 1 k ++ [k+1] := by
      rw [List.range'_1_concat,Nat.add_comm 1 k]
    have hpos : (0:ℤ) < (k+1 : ℕ) := by omega
    simp only [round,varsAfter,hnext,hdelay,if_pos hpos,Option.bind_some,Option.map_some,
      Nat.add_sub_cancel,hconcat,List.map_append,List.map_cons,List.map_nil]
    rfl

variable {count : ℤ} {k : ℕ}

theorem iterate_running (hk : k ≤ 24) (hcount : k ≤ count+1) :
    (next count)^[k] (.running {}) = .running (varsAfter k) := by
  induction k with
  | zero => rfl
  | succ k ih =>
    have hattempt : (varsAfter k).attempt ≤ count := by
      change (k:ℤ) ≤ count
      omega
    rw [Function.iterate_succ_apply',ih (by omega) (by omega),next,if_pos hattempt,
      round_eq (by omega)]
    rfl

theorem iterate_ended (hcount : count ≤ 23) (hk : (count+1).toNat < k) :
    (next count)^[k] (.running {}) = .ended (varsAfter (count+1).toNat) := by
  have hrunning : (next count)^[(count+1).toNat] (.running {}) =
      .running (varsAfter (count+1).toNat) := by
    by_cases hnegative : count+1 < 0
    · have hzero : (count+1).toNat = 0 := by omega
      rw [hzero]
      rfl
    · exact iterate_running (by omega) (by omega)
  have hlast : ¬(varsAfter (count+1).toNat).attempt ≤ count := by
    change ¬((count+1).toNat : ℤ) ≤ count
    omega
  have hended : next count (.running (varsAfter (count+1).toNat)) =
      .ended (varsAfter (count+1).toNat) := by
    rw [next,if_neg hlast]
  obtain ⟨j,hj⟩ := Nat.exists_eq_add_of_lt hk
  have hsplit : k = j+((count+1).toNat+1) := by omega
  rw [hsplit,Function.iterate_add_apply,Function.iterate_succ_apply',hrunning,hended]
  exact Function.iterate_fixed rfl j

theorem iterate_overflow (hcount : 24 ≤ count) :
    (next count)^[25] (.running {}) = .undefined := by
  have hattempt : (varsAfter 24).attempt ≤ count := hcount
  have hround : round (varsAfter 24) = none := by decide
  rw [Function.iterate_succ_apply',iterate_running le_rfl (by omega),next,if_pos hattempt,hround]
  rfl

theorem iterate_eq (hcount : count ≤ 23) (k : ℕ) :
    (next count)^[k] (.running {}) =
      if k ≤ (count+1).toNat then .running (varsAfter k)
      else .ended (varsAfter (count+1).toNat) := by
  split
  · by_cases hnegative : count+1 < 0
    · have hzero : k = 0 := by omega
      rw [hzero]
      rfl
    · exact iterate_running (by omega) (by omega)
  · exact iterate_ended hcount (by omega)

theorem delays_of_running (hcount : count ≤ 23) {v : Vars}
    (hv : (next count)^[k] (.running {}) = .running v) :
    v.delays = (List.range' 1 (k-1)).map exactDelay := by
  rw [iterate_eq hcount] at hv
  split at hv
  · rw [← Loop.running.inj hv]
    rfl
  · cases hv

theorem exactDelay_bounds (k : ℕ) :
    0 ≤ (exactDelay k).lower ∧ (exactDelay k).lower ≤ (exactDelay k).upper := by
  have hnonneg := delayMs_nonneg k
  simp only [exactDelay]
  omega

end Arithmetic

/-- The arithmetic of the loop stays in range if and only if at most 23 retries are asked for. -/
theorem backoff_in_range_iff (count : Int32) : InRange count.toInt ↔ count.toInt ≤ 23 := by
  constructor
  · intro h
    by_contra hcount
    exact h.defined 25 (iterate_overflow (by omega))
  · intro hcount
    refine ⟨fun k => ?_,fun k v hv x hx => ?_,fun k v hv => ?_,?_⟩
    · rw [iterate_eq hcount]
      split <;> simp
    · rw [delays_of_running hcount hv,List.mem_map] at hx
      obtain ⟨j,-,rfl⟩ := hx
      exact exactDelay_bounds j
    · rw [delays_of_running hcount hv,List.pairwise_map]
      have hsorted : (List.range' 1 (k-1)).Pairwise (· < ·) := List.pairwise_lt_range'
      exact hsorted.imp fun hlt => delayMs_mono (Nat.le_of_lt hlt)
    · exact ⟨_,_,iterate_ended hcount (Nat.lt_succ_self _)⟩

/-- A count of 24: the 24th delay overflows in `delay_ms * 3`. -/
theorem delay_overflows_at_24 :
    (next 24)^[25] (.running {}) = .undefined ∧ ¬InRange 24 := by
  have hundefined : (next 24)^[25] (.running {}) = .undefined := by decide
  exact ⟨hundefined,fun h => h.defined 25 hundefined⟩

/-- Where the arithmetic is in range, a pause is drawn between the bounds that the source
computes. -/
theorem pause_eq {C : Client} {s : Conn} {k : ℕ} (hpos : 0 < k) (hle : k ≤ 23) :
    ∃ x, delay k = some x ∧ pause C s k = s.log (.sleep (C.jitter s.calls x.lower x.upper)) := by
  refine ⟨_,delay_eq hpos hle,?_⟩
  rw [pause,if_pos hpos]
  rfl

end RetryLoop
end AlephSql
