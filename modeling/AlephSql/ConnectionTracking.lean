import AlephSql.MysqlConnect
import AlephSql.Transition

/-! What `mysql_connect` knows of its connection. No path of the class sets `M_connectd`, so
that `is_connectd` and the branches that rest on it never see a connection. -/
namespace AlephSql
namespace ConnectionTracking

open Mysql Transition

inductive ConnectCall
  | plain (mysqlDatabaseName : Option String) (clientFlags : UInt64)
  | retry (mysqlDatabaseName : Option String) (clientFlags : UInt64) (connectTimeout : UInt32)
      (mysqlMaxRetryCount : Int32)
  deriving DecidableEq, Repr

def connect (C : Client) (s : Conn) : ConnectCall → Bool × Conn
  | .plain name flags => mysqlConnectToService C s name flags
  | .retry name flags timeout count => mysqlConnectToServiceRetry C s name flags timeout count

inductive Operation
  | optionsConfigure
  | connect (call : ConnectCall)
  deriving DecidableEq, Repr

def perform (C : Client) (s : Conn) : Operation → Conn
  | .optionsConfigure => optionsConfigure C s
  | .connect call => (connect C s call).2

def object (C : Client) : Lts Conn Operation where
  init s := s.self.mysqlHandler = none ∧ s.self.connectd = false ∧ s.calls = []
  step s op t := t = perform C s op

/-- The handle that a call of `mysql_real_connect` has connected. -/
def connects : Event → Option HandleId
  | .realConnect handle _ true => handle
  | _ => none

/-- Some `mysql_real_connect` on the current handle has succeeded. -/
def Connected (s : Conn) : Prop :=
  ∃ c, s.self.mysqlHandler = some c ∧ ∃ e ∈ s.calls, connects e = some c

def isRealConnect : Event → Bool
  | .realConnect _ _ _ => true
  | _ => false

def attempts (h : History) : ℕ := h.countP isRealConnect

/-- `is_connectd` tells whether there is a connection, and while there is one every connect
call returns true without another attempt. -/
structure Tracks (C : Client) (s : Conn) : Prop where
  connectd : isConnectd s.self = true ↔ Connected s
  early : Connected s → ∀ call, (connect C s call).1 = true ∧
    attempts (connect C s call).2.calls = attempts s.calls

section Calls

variable {C : Client} {s : Conn} {l : Login}

@[simp] theorem attempts_log (e : Event) :
    attempts (s.log e).calls = attempts s.calls + if isRealConnect e then 1 else 0 :=
  List.countP_cons ..

@[simp] theorem attempts_options (o : HandleOption) :
    attempts (s.options o).calls = attempts s.calls := attempts_log _

@[simp] theorem attempts_realConnect :
    attempts (s.realConnect C l).2.calls = attempts s.calls+1 := attempts_log _

@[simp] theorem attempts_error : attempts (s.error C).2.calls = attempts s.calls :=
  attempts_log _

@[simp] theorem attempts_pause (attempt : ℕ) :
    attempts (pause C s attempt).calls = attempts s.calls := by
  by_cases h : 0 < attempt <;> simp [pause,h,isRealConnect]

theorem closeConnected_eq (h : s.self.connectd = false) : closeConnected s = s := by
  simp [closeConnected,h]

theorem isConnectd_eq (h : s.self.connectd = false) : isConnectd s.self = false := by
  simp [isConnectd,h]

theorem retryLoop_keeps (rounds attempt : ℕ) :
    (retryLoop C l rounds attempt s).2.self = s.self ∧
      attempts s.calls ≤ attempts (retryLoop C l rounds attempt s).2.calls := by
  induction rounds generalizing attempt s with
  | zero => simp [retryLoop]
  | succ rounds ih =>
    by_cases hsuccess : ((pause C s attempt).realConnect C l).1 = true
    · simp [retryLoop,hsuccess]
    · simp only [retryLoop,hsuccess]
      refine ⟨by simp [ih],le_trans ?_ (ih _).2⟩
      simp [isRealConnect]

theorem connectToServiceRetry_eq (h : s.self.connectd = false) (name : Option String)
    (flags : UInt64) (timeout : UInt32) (count : Int32) :
    mysqlConnectToServiceRetry C s name flags timeout count =
      let first := (s.options (.connectTimeout timeout)).realConnect C (s.login name flags)
      if first.1 then (true,first.2)
      else retryLoop C (s.login name flags) (count.toInt+1).toNat 0 first.2 := by
  have htimed : (s.options (.connectTimeout timeout)).self.connectd = false := h
  simp only [mysqlConnectToServiceRetry,isConnectd_eq htimed,closeConnected_eq htimed]
  rfl

/-- Without `M_connectd` a connect call makes an attempt, whatever the handle. -/
theorem connect_attempts (h : s.self.connectd = false) (call : ConnectCall) :
    (connect C s call).2.self = s.self ∧
      attempts s.calls < attempts (connect C s call).2.calls := by
  cases call with
  | plain name flags =>
    by_cases hsuccess : (s.realConnect C (s.login name flags)).1 = true <;>
      simp [connect,mysqlConnectToService,isConnectd_eq h,closeConnected_eq h,hsuccess,
        isRealConnect]
  | retry name flags timeout count =>
    let first := (s.options (.connectTimeout timeout)).realConnect C (s.login name flags)
    have hfirst : attempts first.2.calls = attempts s.calls+1 := by simp [first]
    have hcall : connect C s (.retry name flags timeout count) =
        if first.1 then (true,first.2)
        else retryLoop C (s.login name flags) (count.toInt+1).toNat 0 first.2 :=
      connectToServiceRetry_eq h name flags timeout count
    by_cases hsuccess : first.1 = true
    · rw [hcall,if_pos hsuccess]
      refine ⟨rfl,?_⟩
      change attempts s.calls < attempts first.2.calls
      omega
    · have hloop := retryLoop_keeps (C := C) (s := first.2) (l := s.login name flags)
        (count.toInt+1).toNat 0
      rw [hcall,if_neg hsuccess]
      exact ⟨hloop.1,by omega⟩

theorem connectd_optionsConfigure :
    (optionsConfigure C s).self.connectd = s.self.connectd := by
  simp only [optionsConfigure]
  split_ifs <;> rfl

end Calls

/-- `M_connectd` stays as the constructor has set it. -/
theorem connectd_reach {C : Client} {s : Conn} (hs : Reachable (object C) s) :
    s.self.connectd = false := by
  refine hs.invariant (I := fun s => s.self.connectd = false) ?_ ?_
  · rintro s ⟨-,h,-⟩
    exact h
  · rintro s op t - h - rfl
    cases op with
    | optionsConfigure => exact connectd_optionsConfigure.trans h
    | connect call =>
      rw [perform,(connect_attempts h call).1]
      exact h

/-- An object tracks its connection in exactly the reachable states in which it has none:
every connect call makes an attempt, also after one that has succeeded. -/
theorem connection_tracked_iff (C : Client) (s : Conn) (hs : Reachable (object C) s) :
    (Tracks C s ↔ ¬Connected s) ∧
      ∀ call, attempts s.calls < attempts (connect C s call).2.calls := by
  have hconnectd := connectd_reach hs
  have hagain := fun call => (connect_attempts (C := C) hconnectd call).2
  refine ⟨⟨fun htracks hconnected => ?_,fun hnone => ⟨?_,fun h => absurd h hnone⟩⟩,hagain⟩
  · have htrue := htracks.connectd.mpr hconnected
    rw [isConnectd_eq hconnectd] at htrue
    cases htrue
  · simp [isConnectd_eq hconnectd,hnone]

section Samples

/-- A library whose handles are new and whose every attempt succeeds. -/
def sampleClient : Client where
  init h := some h.length
  realConnect _ _ _ := true
  error _ _ := ""
  jitter _ lo _ := lo

def constructed : Conn :=
  ⟨{ isConfigured := false
     mysqlConnectAuthInfo :=
       { authMysqlPassword := "O20100829o", authMysqlUsername := "root",
         authMysqlHostname := "localhost" } },[]⟩

theorem reach_configured :
    Reachable (object sampleClient) (perform sampleClient constructed .optionsConfigure) :=
  .step (a := .optionsConfigure) (.init ⟨rfl,rfl,rfl⟩) trivial rfl

theorem connection_tracked_iff_configured :
    (Tracks sampleClient (perform sampleClient constructed .optionsConfigure) ↔
      ¬Connected (perform sampleClient constructed .optionsConfigure)) ∧
    attempts (perform sampleClient constructed .optionsConfigure).calls <
      attempts (connect sampleClient (perform sampleClient constructed .optionsConfigure)
        (.plain (some "test") 0)).2.calls := by
  have h := connection_tracked_iff sampleClient _ reach_configured
  exact ⟨h.1,h.2 (.plain (some "test") 0)⟩

/-- `options_configure`, then a connect that succeeds: `is_connectd` is false, and another
connect calls `mysql_real_connect` again. -/
theorem connection_forgotten : ∃ s : Conn, Reachable (object sampleClient) s ∧ Connected s ∧
    isConnectd s.self = false ∧ attempts s.calls = 1 ∧
    attempts (connect sampleClient s (.plain (some "test") 0)).2.calls = 2 ∧
    ¬Tracks sampleClient s := by
  have hconnected : Reachable (object sampleClient) _ :=
    .step (a := .connect (.plain (some "test") 0)) reach_configured trivial rfl
  have hsuccess : Connected (perform sampleClient (perform sampleClient constructed
      .optionsConfigure) (.connect (.plain (some "test") 0))) :=
    ⟨0,rfl,_,List.mem_cons_self,rfl⟩
  refine ⟨_,hconnected,hsuccess,by decide,by decide,by decide,fun h => ?_⟩
  have htrue := h.connectd.mpr hsuccess
  exact absurd htrue (by decide)

end Samples

end ConnectionTracking
end AlephSql
