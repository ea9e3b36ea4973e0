import AlephSql.ConnectionTracking

/-! The object `sql_database_mysql`. One call of `mysql_connect_database` makes a new
`mysql_connect`, configures it from the option record and connects it, with or without retries. -/
namespace AlephSql
namespace MysqlDatabase

open Mysql ConnectionTracking
open Sqlite (cString)

/-- `mysql_option`, with its defaults. -/
structure MysqlOption where
  mysqlConnectTiemout : UInt32 := 5
  mysqlWriteTimeout : UInt32 := 30
  mysqlReadTimeout : UInt32 := 30
  mysqlMaxRetryCount : Int32 := 10
  mysqlEnableRetry : Bool := true
  mysqlEnableTls : Bool := false
  mysqlEnableCustomCreat : Bool := false
  mysqlEnableCustomTlsKey : Bool := false
  mysqlCACreatPath : String := ""
  mysqlTlsKey : String := ""
  deriving DecidableEq, Repr

structure Service where
  mysqlServiceHostname : String
  mysqlServicePassword : String
  mysqlUsername : String
  mysqlServicePort : UInt16
  mysqlDatabaseName : String
  clientFlgas : UInt64
  deriving DecidableEq, Repr

/-- The member `M_mysql_connect_manager`, which nobody shares, and what has happened so far. -/
structure Db where
  mysqlConnectManager : Option MysqlConnect := none
  calls : History := []
  deriving DecidableEq, Repr

/-- What has happened once the manager of an earlier call has been given up. -/
def release (d : Db) : History :=
  match d.mysqlConnectManager with
  | none => d.calls
  | some manager => destroy ⟨manager,d.calls⟩

def newManager (isConfigured : Bool) (service : Service) : MysqlConnect :=
  construct isConfigured service.mysqlServiceHostname service.mysqlServicePassword
    service.mysqlUsername service.mysqlServicePort

/-- The calls of `mysql_options_set`; both name the custom certificate. -/
def optionsSet (o : MysqlOption) (manager : MysqlConnect) : MysqlConnect :=
  if o.mysqlEnableTls then
    let creat :=
      if o.mysqlEnableCustomCreat then
        mysqlOptionsSet manager o.mysqlEnableTls true o.mysqlEnableCustomTlsKey
      else manager
    if o.mysqlEnableCustomTlsKey then
      mysqlOptionsSet creat o.mysqlEnableTls true o.mysqlEnableCustomTlsKey
    else creat
  else manager

def prepared (isConfigured : Bool) (d : Db) (service : Service) (o : MysqlOption) : Conn :=
  ⟨optionsSet o (newManager isConfigured service),release d⟩

def connectCall (service : Service) (o : MysqlOption) : ConnectCall :=
  if o.mysqlEnableRetry then
    .retry (some service.mysqlDatabaseName) service.clientFlgas o.mysqlConnectTiemout
      o.mysqlMaxRetryCount
  else .plain (some service.mysqlDatabaseName) service.clientFlgas

/-- `mysql_connect_database`. `isConfigured` is what the new object finds in the member that
its constructor leaves alone. -/
def mysqlConnectDatabase (C : Client) (isConfigured : Bool) (d : Db) (service : Service)
    (o : MysqlOption) : Bool × Db :=
  let configured := optionsConfigure C (prepared isConfigured d service o)
  let result := connect C configured (connectCall service o)
  (result.1,⟨some result.2.self,result.2.calls⟩)

section Configure

variable {C : Client} {s : Conn}

/-- The object as `mysql_init` finds it. -/
def warned (s : Conn) : Conn :=
  if s.self.isConfigured then s.log (.logger .warning "Configure faild already configure") else s

/-- The options that `options_configure` sets. -/
def tlsOptions (m : MysqlConnect) : List HandleOption :=
  if m.mysqlConnectOption.isEnableTls then
    (if m.mysqlConnectOption.isEnableCustomCreat then
      [.sslCa (cString m.mysqlConnectOption.customCreatPath)] else []) ++
    (if m.mysqlConnectOption.isEnableCustomKey then
      [.sslKey (cString m.mysqlConnectAuthInfo.authMysqlPassword)] else [])
  else []

theorem self_warned : (warned s).self = s.self := by
  unfold warned
  split <;> rfl

theorem configure_failed (hinit : C.init (warned s).calls = none) :
    optionsConfigure C s =
      ⟨{ s.self with mysqlHandler := none },
        .logger .error "Initiazed error 'mysql_init()' failed" :: .init none ::
          (warned s).calls⟩ := by
  have hfresh : (warned s).init C =
      ⟨{ s.self with mysqlHandler := none },.init none :: (warned s).calls⟩ := by
    rw [Conn.init,hinit,self_warned]
  rw [optionsConfigure,← warned,hfresh]
  rfl

theorem configure_eq {c : HandleId} (hinit : C.init (warned s).calls = some c) :
    optionsConfigure C s =
      ⟨{ s.self with mysqlHandler := some c },
        ((tlsOptions s.self).map (.options (some c))).reverse ++
          .init (some c) :: (warned s).calls⟩ := by
  have hfresh : (warned s).init C =
      ⟨{ s.self with mysqlHandler := some c },.init (some c) :: (warned s).calls⟩ := by
    rw [Conn.init,hinit,self_warned]
  rw [optionsConfigure,← warned,hfresh]
  simp only [tlsOptions]
  by_cases htls : s.self.mysqlConnectOption.isEnableTls = true
  · by_cases hcreat : s.self.mysqlConnectOption.isEnableCustomCreat = true <;>
      by_cases hkey : s.self.mysqlConnectOption.isEnableCustomKey = true <;>
        simp [htls,hcreat,hkey,Conn.options,Conn.log]
  · simp [htls]

end Configure

section Connect

variable {C : Client} {s t : Conn} {l : Login}

inductive Attempts (handle : Option HandleId) (l : Login) : Event → Prop
  | realConnect (success : Bool) : Attempts handle l (.realConnect handle l success)
  | error (text : String) : Attempts handle l (.error handle text)
  | logger (level : LoggerLevel) (message : String) : Attempts handle l (.logger level message)
  | sleep (milliseconds : ℤ) : Attempts handle l (.sleep milliseconds)

/-- From `s` to `t` there have only been attempts, and the members are as they were. -/
structure Adds (l : Login) (s t : Conn) : Prop where
  self : t.self = s.self
  calls : ∃ es, t.calls = es ++ s.calls ∧ ∀ e ∈ es, Attempts s.self.mysqlHandler l e

theorem Adds.refl : Adds l s s := ⟨rfl,[],rfl,by simp⟩

theorem Adds.log (h : Adds l s t) {e : Event} (he : Attempts t.self.mysqlHandler l e) :
    Adds l s (t.log e) := by
  obtain ⟨es,hes,hall⟩ := h.calls
  refine ⟨h.self,e :: es,by rw [List.cons_append,← hes]; rfl,fun x hx => ?_⟩
  rcases List.mem_cons.mp hx with rfl | hx
  · rwa [← h.self]
  · exact hall x hx

theorem Adds.pause (h : Adds l s t) (attempt : ℕ) : Adds l s (pause C t attempt) := by
  unfold Mysql.pause
  split
  · exact h.log (.sleep _)
  · exact h

theorem Adds.retryLoop (h : Adds l s t) (rounds attempt : ℕ) :
    Adds l s (retryLoop C l rounds attempt t).2 := by
  induction rounds generalizing attempt t with
  | zero => exact h
  | succ rounds ih =>
    have htried : Adds l s ((Mysql.pause C t attempt).realConnect C l).2 :=
      (h.pause attempt).log (.realConnect _)
    unfold Mysql.retryLoop
    dsimp only
    split
    · exact htried
    · exact ih ((htried.log (.error _)).log (.logger _ _)) (attempt+1)

theorem log_invariant {P : Conn → Prop} {m : MysqlConnect} {h es : History} (hs : P ⟨m,h⟩)
    (hlog : ∀ u, u.self = m → ∀ e ∈ es, P u → P (u.log e)) : P ⟨m,es ++ h⟩ := by
  induction es with
  | nil => exact hs
  | cons e es ih =>
    have hrest := ih fun u hu x hx => hlog u hu x (List.mem_cons_of_mem _ hx)
    exact hlog ⟨m,es ++ h⟩ rfl e List.mem_cons_self hrest

theorem Adds.invariant {P : Conn → Prop} (h : Adds l s t) (hs : P s)
    (hlog : ∀ u e, u.self = s.self → Attempts s.self.mysqlHandler l e → P u → P (u.log e)) :
    P t := by
  obtain ⟨es,hes,hall⟩ := h.calls
  have ht : t = ⟨s.self,es ++ s.calls⟩ := by rw [← h.self,← hes]
  rw [ht]
  exact log_invariant hs fun u hu e he => hlog u e hu (hall e he)

def timed (s : Conn) : ConnectCall → Conn
  | .plain _ _ => s
  | .retry _ _ timeout _ => s.options (.connectTimeout timeout)

def loginOf (s : Conn) : ConnectCall → Login
  | .plain name flags | .retry name flags _ _ => s.login name flags

def attempted (C : Client) (s : Conn) (call : ConnectCall) : Bool × Conn :=
  (timed s call).realConnect C (loginOf s call)

theorem connect_attempted (h : s.self.connectd = false) (call : ConnectCall) :
    Adds (loginOf s call) (attempted C s call).2 (connect C s call).2 ∧
      ((attempted C s call).1 = true → connect C s call = (true,(attempted C s call).2)) := by
  cases call with
  | plain name flags =>
    have hcall : connect C s (.plain name flags) =
        if (attempted C s (.plain name flags)).1 then (true,(attempted C s (.plain name flags)).2)
        else
          let message := (attempted C s (.plain name flags)).2.error C
          (false,message.2.log (.logger .error message.1)) := by
      simp only [connect,mysqlConnectToService,isConnectd_eq h,closeConnected_eq h]
      rfl
    rw [hcall]
    split
    · exact ⟨.refl,fun _ => rfl⟩
    · next hfailed =>
      exact ⟨(Adds.refl.log (.error _)).log (.logger _ _),fun hok => absurd hok hfailed⟩
  | retry name flags timeout count =>
    have hcall : connect C s (.retry name flags timeout count) =
        if (attempted C s (.retry name flags timeout count)).1 then
          (true,(attempted C s (.retry name flags timeout count)).2)
        else retryLoop C (s.login name flags) (count.toInt+1).toNat 0
          (attempted C s (.retry name flags timeout count)).2 :=
      connectToServiceRetry_eq h name flags timeout count
    rw [hcall]
    split
    · exact ⟨.refl,fun _ => rfl⟩
    · next hfailed => exact ⟨Adds.refl.retryLoop _ _,fun hok => absurd hok hfailed⟩

end Connect

section Course

def opening (isConfigured : Bool) (d : Db) : History :=
  (if isConfigured then [.logger .warning "Configure faild already configure"] else []) ++
  (match d.mysqlConnectManager.bind MysqlConnect.mysqlHandler with
    | none => []
    | some c => [.close (some c)])

def settings (service : Service) (o : MysqlOption) : List HandleOption :=
  tlsOptions (optionsSet o (newManager false service)) ++
    if o.mysqlEnableRetry then [.connectTimeout o.mysqlConnectTiemout] else []

/-- What happens in a call before its first `mysql_real_connect`, the latest first. -/
def earlier (handle : Option HandleId) (isConfigured : Bool) (d : Db) (service : Service)
    (o : MysqlOption) : History :=
  match handle with
  | some c => ((settings service o).map (.options (some c))).reverse ++
      .init (some c) :: opening isConfigured d
  | none => (if o.mysqlEnableRetry then [.options none (.connectTimeout o.mysqlConnectTiemout)]
        else []) ++
      .logger .error "Initiazed error 'mysql_init()' failed" :: .init none ::
        opening isConfigured d

def serviceLogin (service : Service) : Login :=
  { host := cString service.mysqlServiceHostname
    user := cString service.mysqlUsername
    passwd := cString service.mysqlServicePassword
    db := some (cString service.mysqlDatabaseName)
    port := service.mysqlServicePort
    clientFlag := service.clientFlgas }

variable {C : Client} {b : Bool} {d : Db} {v : Service} {o : MysqlOption}

theorem optionsSet_eq (m : MysqlConnect) :
    optionsSet o m = { m with mysqlConnectOption := (optionsSet o m).mysqlConnectOption } := by
  unfold optionsSet
  split_ifs <;> rfl

theorem tlsOptions_prepared :
    tlsOptions (optionsSet o (newManager b v)) =
      if o.mysqlEnableTls ∧ o.mysqlEnableCustomTlsKey then
        [.sslCa "",.sslKey (cString v.mysqlServicePassword)]
      else if o.mysqlEnableTls ∧ o.mysqlEnableCustomCreat then [.sslCa ""] else [] := by
  have hempty : cString "" = "" := by decide
  cases htls : o.mysqlEnableTls <;> cases hcreat : o.mysqlEnableCustomCreat <;>
    cases hkey : o.mysqlEnableCustomTlsKey <;>
    simp [optionsSet,tlsOptions,newManager,construct,mysqlOptionsSet,htls,hcreat,hkey,hempty]

theorem warned_prepared :
    (warned (prepared b d v o)).calls = opening b d ++ d.calls := by
  have hrelease : release d = (match d.mysqlConnectManager.bind MysqlConnect.mysqlHandler with
      | none => []
      | some c => [.close (some c)]) ++ d.calls := by
    obtain ⟨manager,calls⟩ := d
    rcases manager with - | manager
    · rfl
    · cases hhandle : manager.mysqlHandler <;> simp [release,destroy,hhandle]
  have hflag : (prepared b d v o).self.isConfigured = b := by
    rw [prepared,optionsSet_eq]
    rfl
  rw [warned,hflag]
  cases b <;> simp [opening,prepared,hrelease,Conn.log]

theorem loginOf_connectCall {s : Conn}
    (h : s.self.mysqlConnectAuthInfo = (newManager b v).mysqlConnectAuthInfo) :
    loginOf s (connectCall v o) = serviceLogin v := by
  unfold connectCall
  split <;> simp [loginOf,Conn.login,h,newManager,construct,serviceLogin]

theorem timed_connectCall (s : Conn) :
    timed s (connectCall v o) =
      ⟨s.self,(if o.mysqlEnableRetry then
        [.options s.self.mysqlHandler (.connectTimeout o.mysqlConnectTiemout)] else []) ++
          s.calls⟩ := by
  unfold connectCall
  split <;> rfl

def held (x : Option HandleId) (b : Bool) (v : Service) (o : MysqlOption) :
    MysqlConnect :=
  { optionsSet o (newManager b v) with mysqlHandler := x }

theorem held_fields {x : Option HandleId} :
    (held x b v o).mysqlHandler = x ∧
    (held x b v o).connectd = false ∧
    (held x b v o).mysqlConnectAuthInfo =
      (newManager b v).mysqlConnectAuthInfo := by
  rw [held,optionsSet_eq]
  exact ⟨rfl,rfl,rfl⟩

/-- A call up to its `options_configure`, and up to its first attempt. -/
theorem configure_prepared {x : Option HandleId}
    (hinit : C.init (opening b d ++ d.calls) = x) :
    (optionsConfigure C (prepared b d v o)).self =
      held x b v o ∧
    (timed (optionsConfigure C (prepared b d v o))
      (connectCall v o)).calls = earlier x b d v o ++ d.calls := by
  have htls : tlsOptions (prepared b d v o).self =
      tlsOptions (optionsSet o (newManager false v)) :=
    tlsOptions_prepared.trans tlsOptions_prepared.symm
  rw [← warned_prepared (v := v) (o := o)] at hinit
  rw [timed_connectCall]
  cases x with
  | none =>
    rw [configure_failed hinit,warned_prepared]
    refine ⟨rfl,?_⟩
    simp [earlier]
  | some c =>
    rw [configure_eq hinit,warned_prepared,htls]
    refine ⟨rfl,?_⟩
    cases hretry : o.mysqlEnableRetry <;> simp [earlier,settings,hretry]

def firstSuccess (C : Client) (x : Option HandleId) (b : Bool) (d : Db)
    (v : Service) (o : MysqlOption) : Bool :=
  C.realConnect (earlier x b d v o ++ d.calls) x (serviceLogin v)

theorem attempted_prepared {x : Option HandleId}
    (hinit : C.init (opening b d ++ d.calls) = x) :
    attempted C (optionsConfigure C (prepared b d v o)) (connectCall v o) =
      (firstSuccess C x b d v o,⟨held x b v o,
        .realConnect x (serviceLogin v)
          (firstSuccess C x b d v o) ::
            (earlier x b d v o ++ d.calls)⟩) ∧
      loginOf (optionsConfigure C (prepared b d v o)) (connectCall v o) =
        serviceLogin v := by
  obtain ⟨hself,hcalls⟩ := configure_prepared (v := v) (o := o) hinit
  obtain ⟨hhandle,-,hauth⟩ := held_fields (x := x) (b := b)
    (v := v) (o := o)
  have hlogin := loginOf_connectCall (o := o)
    ((congrArg MysqlConnect.mysqlConnectAuthInfo hself).trans hauth)
  have htimed : (timed (optionsConfigure C (prepared b d v o))
      (connectCall v o)).self = held x b v o := by
    rw [timed_connectCall,hself]
  refine ⟨?_,hlogin⟩
  rw [attempted,Conn.realConnect,hlogin,Conn.log,htimed,hcalls,hhandle]
  rfl

/-- The course of a call: what comes before its first attempt, the attempt, and only attempts
after it, none if the first one has succeeded. -/
theorem mysqlConnectDatabase_calls {x : Option HandleId}
    (hinit : C.init (opening b d ++ d.calls) = x) :
    ∃ later,
      (mysqlConnectDatabase C b d v o).2.calls =
        later ++ .realConnect x (serviceLogin v)
          (firstSuccess C x b d v o) ::
            (earlier x b d v o ++ d.calls) ∧
      (∀ e ∈ later, Attempts x (serviceLogin v) e) ∧
      (firstSuccess C x b d v o = true → later = [] ∧
        (mysqlConnectDatabase C b d v o).1 = true) ∧
      (mysqlConnectDatabase C b d v o).2.mysqlConnectManager =
        some (held x b v o) := by
  obtain ⟨hself,-⟩ := configure_prepared (v := v) (o := o) hinit
  obtain ⟨hattempted,hlogin⟩ := attempted_prepared (v := v) (o := o) hinit
  obtain ⟨hhandle,hconnectd,-⟩ := held_fields (x := x) (b := b)
    (v := v) (o := o)
  obtain ⟨hadds,hfirst⟩ := connect_attempted (C := C)
    ((congrArg MysqlConnect.connectd hself).trans hconnectd) (connectCall v o)
  rw [hattempted,hlogin] at hadds
  rw [hattempted] at hfirst
  obtain ⟨later,hlater,hall⟩ := hadds.calls
  refine ⟨later,hlater,?_,fun hok => ?_,congrArg some hadds.self⟩
  · simpa only [hhandle] using hall
  · have hresult := hfirst hok
    refine ⟨?_,congrArg Prod.fst hresult⟩
    rw [hresult] at hlater
    simpa using hlater

end Course

/-- The handle that `mysql_options`, `mysql_real_connect` or `mysql_error` is given. -/
def usedHandle : Event → Option (Option HandleId)
  | .options handle _ | .realConnect handle _ _ | .error handle _ => some handle
  | _ => none

/-- What a call owes when its `mysql_init` may fail: no null handle is used, and after a failed
`mysql_init` the call fails. -/
structure FailsCleanly (es : History) (result : Bool) : Prop where
  handles : ∀ e ∈ es, usedHandle e ≠ some none
  result : .init none ∈ es → result = false

section NullHandle

variable {C : Client} {b : Bool} {d : Db} {v : Service} {o : MysqlOption} {c : HandleId}

theorem Attempts.usedHandle {x : Option HandleId} {l : Login} {e : Event} (h : Attempts x l e) :
    usedHandle e = none ∨ usedHandle e = some x := by
  cases h with
  | realConnect | error => exact .inr rfl
  | logger | sleep => exact .inl rfl

theorem Attempts.ne_init {x y : Option HandleId} {l : Login} {e : Event} (h : Attempts x l e) :
    e ≠ .init y := by
  rintro rfl
  cases h

theorem mem_opening {e : Event} (he : e ∈ opening b d) :
    usedHandle e = none ∧ ∀ x, e ≠ .init x := by
  simp only [opening,List.mem_append] at he
  rcases he with he | he
  · split at he
    · rw [List.mem_singleton.mp he]
      exact ⟨rfl,fun x h => by cases h⟩
    · cases he
  · split at he
    · cases he
    · rw [List.mem_singleton.mp he]
      exact ⟨rfl,fun x h => by cases h⟩

theorem mem_earlier {e : Event} (he : e ∈ earlier (some c) b d v o) :
    (usedHandle e = none ∨ usedHandle e = some (some c)) ∧ e ≠ .init none := by
  simp only [earlier,List.mem_append,List.mem_reverse,List.mem_map,List.mem_cons] at he
  rcases he with ⟨x,-,rfl⟩ | rfl | he
  · exact ⟨.inr rfl,fun h => by cases h⟩
  · exact ⟨.inl rfl,fun h => by cases h⟩
  · exact ⟨.inl (mem_opening he).1,(mem_opening he).2 none⟩

end NullHandle

/-- After any earlier calls, a call fails cleanly if and only if its `mysql_init` succeeds. -/
theorem failed_init_fails_iff (C : Client) (isConfigured : Bool) (d : Db) (service : Service)
    (o : MysqlOption) : ∃ es,
    (mysqlConnectDatabase C isConfigured d service o).2.calls = es ++ d.calls ∧
    (FailsCleanly es (mysqlConnectDatabase C isConfigured d service o).1 ↔
      C.init (opening isConfigured d ++ d.calls) ≠ none) := by
  obtain ⟨later,hcalls,hlater,-,-⟩ :=
    mysqlConnectDatabase_calls (C := C) (b := isConfigured) (d := d) (v := service) (o := o) rfl
  rw [← List.cons_append,← List.append_assoc] at hcalls
  refine ⟨_,hcalls,?_⟩
  cases hinit : C.init (opening isConfigured d ++ d.calls) with
  | none =>
    refine iff_of_false (fun h => ?_) (by simp)
    exact h.handles _ (List.mem_append_right _ List.mem_cons_self) rfl
  | some c =>
    rw [hinit] at hlater
    refine iff_of_true ⟨fun e he => ?_,fun he => ?_⟩ (by simp)
    · rcases List.mem_append.mp he with he | he
      · rcases (hlater e he).usedHandle with h | h <;> simp [h]
      · rcases List.mem_cons.mp he with rfl | he
        · simp [usedHandle]
        · rcases (mem_earlier he).1 with h | h <;> simp [h]
    · rcases List.mem_append.mp he with he | he
      · exact absurd rfl (hlater _ he).ne_init
      · rcases List.mem_cons.mp he with he | he
        · cases he
        · exact absurd rfl (mem_earlier he).2

section Samples

def exhaustedClient : Client := { sampleClient with init := fun _ => none }

def localService : Service :=
  { mysqlServiceHostname := "localhost"
    mysqlServicePassword := "O20100829o"
    mysqlUsername := "root"
    mysqlServicePort := 3306
    mysqlDatabaseName := "test"
    clientFlgas := 0 }

/-- `mysql_init` fails, and the retrying connect sets an option on the null handle and connects
it. -/
theorem null_handle_used :
    .options none (.connectTimeout 5) ∈
      (mysqlConnectDatabase exhaustedClient false {} localService {}).2.calls ∧
    ¬FailsCleanly (mysqlConnectDatabase exhaustedClient false {} localService {}).2.calls
      (mysqlConnectDatabase exhaustedClient false {} localService {}).1 := by
  have hused : .options none (.connectTimeout 5) ∈
      (mysqlConnectDatabase exhaustedClient false {} localService {}).2.calls := by decide
  exact ⟨hused,fun h => h.handles _ hused rfl⟩

end Samples

end MysqlDatabase
end AlephSql
