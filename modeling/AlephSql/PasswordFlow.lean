import AlephSql.ConnectOptions

/-! Two calls of `mysql_connect_database` that differ in the password, side by side. What can be
told apart is everything but the password argument of `mysql_real_connect`. -/
namespace AlephSql
namespace PasswordFlow

open Mysql ConnectionTracking MysqlDatabase ConnectOptions
open Sqlite (cString)

def hiddenLogin (l : Login) : Login := { l with passwd := "" }

/-- An event without the password argument. -/
def hidden : Event → Event
  | .realConnect handle login success => .realConnect handle (hiddenLogin login) success
  | e => e

def withoutPassword (h : History) : History := h.map hidden

structure SameOutcomes (C C' : Client) : Prop where
  init : ∀ h h', withoutPassword h = withoutPassword h' → C.init h = C'.init h'
  realConnect : ∀ h h' handle l l', withoutPassword h = withoutPassword h' →
    hiddenLogin l = hiddenLogin l' → C.realConnect h handle l = C'.realConnect h' handle l'
  error : ∀ h h' handle, withoutPassword h = withoutPassword h' →
    C.error h handle = C'.error h' handle
  jitter : ∀ h h' lower upper, withoutPassword h = withoutPassword h' →
    C.jitter h lower upper = C'.jitter h' lower upper

def hiddenMembers (m : MysqlConnect) : MysqlConnect :=
  { m with mysqlConnectAuthInfo := { m.mysqlConnectAuthInfo with authMysqlPassword := "" } }

structure Alike (s s' : Conn) : Prop where
  members : hiddenMembers s.self = hiddenMembers s'.self
  calls : withoutPassword s.calls = withoutPassword s'.calls

section Steps

variable {C C' : Client} {s s' : Conn} {l l' : Login}

theorem Alike.fields (h : Alike s s') :
    s.self.mysqlHandler = s'.self.mysqlHandler ∧ s.self.connectd = s'.self.connectd ∧
      s.self.isConfigured = s'.self.isConfigured := by
  have hmembers := h.members
  simp only [hiddenMembers,MysqlConnect.mk.injEq] at hmembers
  exact ⟨hmembers.1,hmembers.2.1,hmembers.2.2.1⟩

theorem Alike.handler (h : Alike s s') : s.self.mysqlHandler = s'.self.mysqlHandler := h.fields.1

theorem Alike.connectd (h : Alike s s') : s.self.connectd = s'.self.connectd := h.fields.2.1

theorem Alike.isConfigured (h : Alike s s') : s.self.isConfigured = s'.self.isConfigured :=
  h.fields.2.2

theorem Alike.log (h : Alike s s') {e e' : Event} (he : hidden e = hidden e') :
    Alike (s.log e) (s'.log e') := by
  refine ⟨h.members,?_⟩
  have hcalls := h.calls
  simp only [withoutPassword] at hcalls
  simp [withoutPassword,Conn.log,he,hcalls]

theorem Alike.options (h : Alike s s') (option : HandleOption) :
    Alike (s.options option) (s'.options option) := by
  apply h.log
  rw [h.handler]

theorem Alike.login (h : Alike s s') (name : Option String) (flags : UInt64) :
    hiddenLogin (s.login name flags) = hiddenLogin (s'.login name flags) := by
  have hauth := congrArg MysqlConnect.mysqlConnectAuthInfo h.members
  simp only [hiddenMembers,AuthData.mk.injEq] at hauth
  simp [hiddenLogin,Conn.login,hauth]

theorem Alike.realConnect (hC : SameOutcomes C C') (h : Alike s s')
    (hl : hiddenLogin l = hiddenLogin l') :
    (s.realConnect C l).1 = (s'.realConnect C' l').1 ∧
      Alike (s.realConnect C l).2 (s'.realConnect C' l').2 := by
  have hanswer := hC.realConnect _ _ s.self.mysqlHandler _ _ h.calls hl
  rw [h.handler] at hanswer
  refine ⟨by rw [Conn.realConnect,h.handler]; exact hanswer,h.log ?_⟩
  rw [hidden,hidden,h.handler,hanswer,hl]

theorem Alike.error (hC : SameOutcomes C C') (h : Alike s s') :
    (s.error C).1 = (s'.error C').1 ∧ Alike (s.error C).2 (s'.error C').2 := by
  have htext := hC.error _ _ s.self.mysqlHandler h.calls
  rw [h.handler] at htext
  refine ⟨by simp only [Conn.error,h.handler,htext],h.log ?_⟩
  rw [h.handler,htext]

theorem Alike.pause (hC : SameOutcomes C C') (h : Alike s s') (attempt : ℕ) :
    Alike (pause C s attempt) (pause C' s' attempt) := by
  unfold Mysql.pause
  split
  · apply h.log
    rw [hC.jitter _ _ _ _ h.calls]
  · exact h

theorem Alike.closeConnected (h : Alike s s') :
    Alike (closeConnected s) (closeConnected s') := by
  have hclosed : Alike (s.log (.close s.self.mysqlHandler)) (s'.log (.close s.self.mysqlHandler)) :=
    h.log rfl
  unfold Mysql.closeConnected
  rw [← h.handler,← h.connectd]
  split
  · refine ⟨?_,hclosed.calls⟩
    exact congrArg (fun m : MysqlConnect => { m with mysqlHandler := none, connectd := false })
      h.members
  · exact h

theorem Alike.retryLoop (hC : SameOutcomes C C') (h : Alike s s')
    (hl : hiddenLogin l = hiddenLogin l') (rounds attempt : ℕ) :
    (retryLoop C l rounds attempt s).1 = (retryLoop C' l' rounds attempt s').1 ∧
      Alike (retryLoop C l rounds attempt s).2 (retryLoop C' l' rounds attempt s').2 := by
  induction rounds generalizing attempt s s' with
  | zero => exact ⟨rfl,h⟩
  | succ rounds ih =>
    obtain ⟨hanswer,htried⟩ := (h.pause hC attempt).realConnect hC hl
    obtain ⟨htext,hasked⟩ := htried.error hC
    unfold Mysql.retryLoop
    dsimp only
    rw [hanswer]
    split
    · exact ⟨rfl,htried⟩
    · apply ih
      apply hasked.log
      rw [htext]

theorem Alike.isConnectd (h : Alike s s') : isConnectd s.self = isConnectd s'.self := by
  rw [Mysql.isConnectd,Mysql.isConnectd,h.handler,h.connectd]

/-- Both connect functions treat like objects alike. -/
theorem Alike.connect (hC : SameOutcomes C C') (h : Alike s s') (call : ConnectCall) :
    (connect C s call).1 = (connect C' s' call).1 ∧
      Alike (connect C s call).2 (connect C' s' call).2 := by
  cases call with
  | plain name flags =>
    obtain ⟨hanswer,htried⟩ := h.closeConnected.realConnect hC (h.closeConnected.login name flags)
    obtain ⟨htext,hasked⟩ := htried.error hC
    simp only [ConnectionTracking.connect,mysqlConnectToService]
    rw [h.isConnectd,hanswer]
    split
    · exact ⟨rfl,h⟩
    · split
      · exact ⟨rfl,htried⟩
      · refine ⟨rfl,hasked.log ?_⟩
        rw [htext]
  | retry name flags timeout count =>
    have htimed := h.options (.connectTimeout timeout)
    have hlogin := htimed.closeConnected.login name flags
    obtain ⟨hanswer,htried⟩ := htimed.closeConnected.realConnect hC hlogin
    simp only [ConnectionTracking.connect,mysqlConnectToServiceRetry]
    rw [htimed.isConnectd,hanswer]
    split
    · exact ⟨rfl,htimed⟩
    · split
      · exact ⟨rfl,htried⟩
      · exact htried.retryLoop hC hlogin _ _

theorem Alike.optionsConfigure (hC : SameOutcomes C C') (h : Alike s s')
    (htls : C.init (warned s).calls ≠ none → tlsOptions s.self = tlsOptions s'.self) :
    Alike (optionsConfigure C s) (optionsConfigure C' s') := by
  have hwarned : Alike (warned s) (warned s') := by
    rw [warned,warned,h.isConfigured]
    split
    · exact h.log rfl
    · exact h
  have hmembers : ∀ x, hiddenMembers { s.self with mysqlHandler := x } =
      hiddenMembers { s'.self with mysqlHandler := x } := fun x =>
    congrArg (fun m : MysqlConnect => { m with mysqlHandler := x }) h.members
  have hanswer := hC.init _ _ hwarned.calls
  have hcalls := hwarned.calls
  simp only [withoutPassword] at hcalls
  cases hinit : C.init (warned s).calls with
  | none =>
    rw [configure_failed hinit,configure_failed (hanswer.symm.trans hinit)]
    refine ⟨hmembers none,?_⟩
    simp [withoutPassword,hcalls]
  | some c =>
    rw [configure_eq hinit,configure_eq (hanswer.symm.trans hinit),htls (by simp [hinit])]
    refine ⟨hmembers (some c),?_⟩
    simp [withoutPassword,hcalls]

end Steps

section Calls

variable {C C' : Client} {b : Bool} {d : Db} {v : Service} {o : MysqlOption}

/-- The same arguments with another password. -/
def withPassword (v : Service) (password : String) : Service :=
  { v with mysqlServicePassword := password }

theorem alike_prepared (password : String) :
    Alike (prepared b d v o) (prepared b d (withPassword v password) o) := by
  refine ⟨?_,rfl⟩
  unfold prepared optionsSet
  split_ifs <;> rfl

theorem alike_calls (hC : SameOutcomes C C') {password : String}
    (htls : C.init (opening b d ++ d.calls) ≠ none → o.mysqlEnableTls = true →
      o.mysqlEnableCustomTlsKey = true → cString v.mysqlServicePassword = cString password) :
    withoutPassword (mysqlConnectDatabase C b d v o).2.calls =
      withoutPassword (mysqlConnectDatabase C' b d (withPassword v password) o).2.calls := by
  have hconfigured : Alike (optionsConfigure C (prepared b d v o))
      (optionsConfigure C' (prepared b d (withPassword v password) o)) := by
    apply (alike_prepared password).optionsConfigure hC
    intro hinit
    rw [warned_prepared] at hinit
    have hpassword : o.mysqlEnableTls = true ∧ o.mysqlEnableCustomTlsKey = true →
        cString v.mysqlServicePassword = cString password := fun h => htls hinit h.1 h.2
    rw [prepared,prepared,tlsOptions_prepared,tlsOptions_prepared]
    split
    · next hkey => rw [hpassword hkey,withPassword]
    · rfl
  exact (hconfigured.connect hC (connectCall v o)).2.calls

theorem setting_hidden (e : Event) : setting (hidden e) = setting e := by
  cases e <;> rfl

/-- The options that a call has set, and the earlier ones. -/
theorem setting_calls {c : HandleId} (hinit : C.init (opening b d ++ d.calls) = some c) :
    (withoutPassword (mysqlConnectDatabase C b d v o).2.calls).filterMap setting =
      ((settings v o).map fun option => (some c,option)).reverse ++ d.calls.filterMap setting := by
  obtain ⟨later,hcalls,hlater,-⟩ := mysqlConnectDatabase_calls (v := v) (o := o) hinit
  have hkept : setting ∘ hidden = setting := funext setting_hidden
  rw [withoutPassword,List.filterMap_map,hkept,hcalls,List.filterMap_append,
    setting_attempts hlater,List.nil_append,List.filterMap_cons_none rfl,List.filterMap_append,
    setting_earlier]

end Calls

/-- Two calls that differ in the password show nothing else of it if and only if it is not set as
the key of TLS, or the two passwords are the same to the library. -/
theorem password_hidden_iff (C C' : Client) (hC : SameOutcomes C C') (isConfigured : Bool) (d : Db)
    (service : Service) (password : String) (o : MysqlOption) :
    withoutPassword (mysqlConnectDatabase C isConfigured d service o).2.calls =
      withoutPassword
        (mysqlConnectDatabase C' isConfigured d (withPassword service password) o).2.calls ↔
    (C.init (opening isConfigured d ++ d.calls) ≠ none → o.mysqlEnableTls = true →
      o.mysqlEnableCustomTlsKey = true →
        cString service.mysqlServicePassword = cString password) := by
  refine ⟨fun hsame hinit htls hkey => ?_,alike_calls hC⟩
  obtain ⟨c,hc⟩ := Option.ne_none_iff_exists'.mp hinit
  have hc' : C'.init (opening isConfigured d ++ d.calls) = some c := by
    rw [← hC.init _ _ rfl,hc]
  have hset := congrArg (List.filterMap setting) hsame
  rw [setting_calls hc,setting_calls hc',List.append_cancel_right_eq,List.reverse_inj] at hset
  have hsettings : settings service o = settings (withPassword service password) o :=
    List.map_injective_iff.mpr (fun x y h => (Prod.mk.inj h).2) hset
  have hmem : .sslKey (cString service.mysqlServicePassword) ∈ settings service o :=
    sslKey_mem.mpr ⟨htls,hkey,rfl⟩
  rw [hsettings] at hmem
  exact (sslKey_mem.mp hmem).2.2

section Samples

theorem sameOutcomes_sampleClient : SameOutcomes sampleClient sampleClient := by
  constructor
  · intro h h' hsame
    have hlength := congrArg List.length hsame
    simpa [sampleClient,withoutPassword] using hlength
  all_goals intros; rfl

theorem password_hidden_iff_plain :
    withoutPassword (mysqlConnectDatabase sampleClient false {} localService {}).2.calls =
      withoutPassword (mysqlConnectDatabase sampleClient false {}
        (withPassword localService "hunter2") {}).2.calls :=
  (password_hidden_iff sampleClient sampleClient sameOutcomes_sampleClient false {} localService
    "hunter2" {}).mpr fun _ htls => absurd htls (by decide)

/-- With a custom key the password is in the options. -/
theorem password_in_options :
    SameOutcomes sampleClient sampleClient ∧
    .options (some 0) (.sslKey "O20100829o") ∈
      (mysqlConnectDatabase sampleClient false {} localService
        { mysqlEnableTls := true, mysqlEnableCustomTlsKey := true }).2.calls ∧
    withoutPassword (mysqlConnectDatabase sampleClient false {} localService
        { mysqlEnableTls := true, mysqlEnableCustomTlsKey := true }).2.calls ≠
      withoutPassword (mysqlConnectDatabase sampleClient false {}
        (withPassword localService "hunter2")
          { mysqlEnableTls := true, mysqlEnableCustomTlsKey := true }).2.calls :=
  ⟨sameOutcomes_sampleClient,by decide,by decide⟩

end Samples

end PasswordFlow
end AlephSql
