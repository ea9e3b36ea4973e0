import AlephSql.Custody
import AlephSql.MysqlDatabase

/-! The handles of one `mysql_connect` over its whole life. A handle is acquired by `mysql_init`
and released by `mysql_close`; its only holder is the object. -/
namespace AlephSql
namespace MysqlHandles

open Mysql Custody MysqlDatabase
open ConnectionTracking (ConnectCall connect)

inductive Operation
  | mysqlOptionsSet (enableTls enableCustomCreat enableCustomTlsKey : Bool)
  | optionsConfigure
  | connect (call : ConnectCall)
  deriving DecidableEq, Repr

def perform (C : Client) (s : Conn) : Operation → Conn
  | .mysqlOptionsSet tls creat key => { s with self := mysqlOptionsSet s.self tls creat key }
  | .optionsConfigure => optionsConfigure C s
  | .connect call => (connect C s call).2

def run (C : Client) (s : Conn) (ops : List Operation) : Conn := ops.foldl (perform C) s

def handleEvent : Mysql.Event → Option (Custody.Event HandleId)
  | .init out => out.map .acquire
  | .options handle _ | .realConnect handle _ _ | .error handle _ => handle.map .use
  | .close handle => handle.map .release
  | _ => none

def handleLog (h : History) : Log HandleId := h.filterMap handleEvent

/-- `mysql_init` never returns a handle that it has returned before. -/
def InitFresh (C : Client) : Prop :=
  ∀ h c, C.init h = some c → c ∉ acquired (handleLog h)

/-- Every handle that has been returned is closed exactly once, and is not used after that. -/
def ClosedOnce (h : History) : Prop := ReleasedOnce (handleLog h)

/-- No `options_configure` is called while the object has a handle. -/
def NeverReplaces (C : Client) : Conn → List Operation → Prop
  | _, [] => True
  | s, op :: ops =>
    (op = .optionsConfigure → s.self.mysqlHandler = none) ∧ NeverReplaces C (perform C s op) ops

section Invariants

variable {C : Client} {s t : Conn}

def holder (s : Conn) : Unit → Option HandleId := fun _ => s.self.mysqlHandler

/-- The object holds what it has and nothing that has been closed, and has not been connected. -/
structure Owned (s : Conn) : Prop where
  sound : Sound (holder s) (handleLog s.calls)
  connectd : s.self.connectd = false

/-- The object holds every handle that is not closed. -/
def KeptAll (s : Conn) : Prop := Kept (holder s) (handleLog s.calls)

theorem handleLog_cons (e : Mysql.Event) (h : History) :
    handleLog (e :: h) = (handleEvent e).toList ++ handleLog h :=
  Sqlite.filterMap_cons_toList _ _ _

theorem handleLog_use {e : Mysql.Event}
    (he : handleEvent e = none ∨ handleEvent e = s.self.mysqlHandler.map .use) (h : History) :
    handleLog (e :: h) = handleLog h ∨
      handleLog (e :: h) = nullable .use (holder s ()) (handleLog h) := by
  rw [handleLog_cons]
  rcases he with he | he
  · exact .inl (by rw [he]; rfl)
  · exact .inr (by rw [he]; rfl)

theorem Owned.log (h : Owned s) {e : Mysql.Event}
    (he : handleEvent e = none ∨ handleEvent e = s.self.mysqlHandler.map .use) :
    Owned (s.log e) := by
  refine ⟨?_,h.connectd⟩
  rcases handleLog_use he s.calls with hlog | hlog
  · exact hlog ▸ h.sound
  · exact hlog ▸ h.sound.useNullable ()

theorem keptAll_log {e : Mysql.Event}
    (he : handleEvent e = none ∨ handleEvent e = s.self.mysqlHandler.map .use) :
    KeptAll (s.log e) ↔ KeptAll s := by
  rcases handleLog_use he s.calls with hlog | hlog
  · exact iff_of_eq (congrArg (Kept (holder s)) hlog)
  · exact (iff_of_eq (congrArg (Kept (holder s)) hlog)).trans (kept_useNullable _)

theorem handleEvent_attempts {x : Option HandleId} {l : Login} {e : Mysql.Event}
    (h : Attempts x l e) : handleEvent e = none ∨ handleEvent e = x.map .use := by
  cases h with
  | realConnect | error => exact .inr rfl
  | logger | sleep => exact .inl rfl

theorem connect_invariant {P : Conn → Prop} (hs : P s) (hconnectd : s.self.connectd = false)
    (hlog : ∀ u e, u.self = s.self →
      handleEvent e = none ∨ handleEvent e = s.self.mysqlHandler.map .use → P u → P (u.log e))
    (call : ConnectCall) : P (connect C s call).2 := by
  have htimed : (timed s call).self = s.self ∧ P (timed s call) := by
    cases call with
    | plain => exact ⟨rfl,hs⟩
    | retry => exact ⟨rfl,hlog s _ rfl (.inr rfl) hs⟩
  have hfirst : (attempted C s call).2.self = s.self ∧ P (attempted C s call).2 :=
    ⟨htimed.1,hlog _ _ htimed.1 (.inr (by rw [htimed.1]; rfl)) htimed.2⟩
  refine (connect_attempted hconnectd call).1.invariant hfirst.2 fun u e hu he hP => ?_
  rw [hfirst.1] at hu he
  exact hlog u e hu (handleEvent_attempts he) hP

theorem Owned.connect (h : Owned s) (call : ConnectCall) : Owned (connect C s call).2 :=
  connect_invariant h h.connectd
    (fun _ _ hself he hu => hu.log (by rwa [hself])) call

theorem keptAll_connect (h : Owned s) (call : ConnectCall) :
    KeptAll (connect C s call).2 ↔ KeptAll s :=
  connect_invariant (P := fun u => KeptAll u ↔ KeptAll s) Iff.rfl h.connectd
    (fun _ _ hself he hu => (keptAll_log (by rwa [hself])).trans hu) call

def initAnswer (C : Client) (s : Conn) : Option HandleId := C.init (warned s).calls

def started (C : Client) (s : Conn) : Conn :=
  ⟨{ s.self with mysqlHandler := initAnswer C s },.init (initAnswer C s) :: (warned s).calls⟩

theorem handleLog_warned : handleLog (warned s).calls = handleLog s.calls := by
  unfold warned
  split <;> rfl

theorem handleLog_started :
    handleLog (started C s).calls = nullable .acquire (initAnswer C s) (handleLog s.calls) :=
  (handleLog_cons _ _).trans (congrArg _ handleLog_warned)

theorem holder_started :
    holder (started C s) = Function.update (holder s) () (initAnswer C s) := by
  funext i
  simp [holder,started]

theorem configure_started : ∃ es,
    optionsConfigure C s = ⟨(started C s).self,es ++ (started C s).calls⟩ ∧
    ∀ e ∈ es, handleEvent e = none ∨
      handleEvent e = (started C s).self.mysqlHandler.map .use := by
  cases hinit : C.init (warned s).calls with
  | none =>
    refine ⟨[.logger .error "Initiazed error 'mysql_init()' failed"],?_,?_⟩
    · rw [configure_failed hinit,started,initAnswer,hinit]
      rfl
    · intro e he
      rw [List.mem_singleton.mp he]
      exact .inl rfl
  | some c =>
    refine ⟨((tlsOptions s.self).map (.options (some c))).reverse,?_,?_⟩
    · rw [configure_eq hinit,started,initAnswer,hinit]
    · intro e he
      obtain ⟨option,-,rfl⟩ := List.mem_map.mp (List.mem_reverse.mp he)
      exact .inr (by rw [started,initAnswer,hinit]; rfl)

theorem configure_invariant {P : Conn → Prop} (hs : P (started C s))
    (hlog : ∀ u e, handleEvent e = none ∨ handleEvent e = u.self.mysqlHandler.map .use →
      P u → P (u.log e)) :
    P (optionsConfigure C s) := by
  obtain ⟨es,hes,hall⟩ := configure_started (C := C) (s := s)
  rw [hes]
  exact log_invariant hs fun u hu e he => hlog u e (by rw [hu]; exact hall e he)

theorem initAnswer_fresh (hfresh : InitFresh C) (c : HandleId) (hc : initAnswer C s = some c) :
    c ∉ acquired (handleLog s.calls) :=
  handleLog_warned (s := s) ▸ hfresh _ c hc

theorem Owned.configure (hfresh : InitFresh C) (h : Owned s) :
    Owned (optionsConfigure C s) := by
  refine configure_invariant ⟨?_,h.connectd⟩ fun u e he hu => hu.log he
  rw [holder_started,handleLog_started]
  exact h.sound.acquireNullable () (initAnswer_fresh hfresh)

theorem keptAll_configure (hfresh : InitFresh C) (h : Owned s) :
    KeptAll (optionsConfigure C s) ↔ KeptAll s ∧ s.self.mysqlHandler = none := by
  have hstarted : KeptAll (started C s) ↔ KeptAll s ∧ s.self.mysqlHandler = none := by
    rw [KeptAll,holder_started,handleLog_started]
    exact h.sound.kept_acquireNullable () (initAnswer_fresh hfresh)
  exact configure_invariant (P := fun u => KeptAll u ↔ KeptAll s ∧ s.self.mysqlHandler = none)
    hstarted fun _ _ he hu => (keptAll_log he).trans hu

theorem owned_construct (isConfigured : Bool) (host password user : String) (port : UInt16) :
    Owned ⟨construct isConfigured host password user port,[]⟩ ∧
      KeptAll ⟨construct isConfigured host password user port,[]⟩ :=
  ⟨⟨sound_nil,rfl⟩,kept_nil⟩

theorem Owned.perform (hfresh : InitFresh C) (h : Owned s) (op : Operation) :
    Owned (perform C s op) := by
  cases op with
  | mysqlOptionsSet => exact ⟨h.sound,h.connectd⟩
  | optionsConfigure => exact h.configure hfresh
  | connect call => exact h.connect call

theorem keptAll_perform (hfresh : InitFresh C) (h : Owned s) (op : Operation) :
    KeptAll (perform C s op) ↔
      KeptAll s ∧ (op = .optionsConfigure → s.self.mysqlHandler = none) := by
  cases op with
  | mysqlOptionsSet => exact ⟨fun hk => ⟨hk,nofun⟩,fun hk => hk.1⟩
  | optionsConfigure =>
    exact (keptAll_configure hfresh h).trans
      ⟨fun hk => ⟨hk.1,fun _ => hk.2⟩,fun hk => ⟨hk.1,hk.2 rfl⟩⟩
  | connect call =>
    exact (keptAll_connect h call).trans ⟨fun hk => ⟨hk,nofun⟩,fun hk => hk.1⟩

/-- Over a whole run nothing is lost if and only if no handle is replaced. -/
theorem keptAll_run (hfresh : InitFresh C) (h : Owned s) (ops : List Operation) :
    Owned (run C s ops) ∧ (KeptAll (run C s ops) ↔ KeptAll s ∧ NeverReplaces C s ops) := by
  induction ops generalizing s with
  | nil => exact ⟨h,by simp [run,NeverReplaces]⟩
  | cons op ops ih =>
    obtain ⟨howned,hkept⟩ := ih (h.perform hfresh op)
    refine ⟨howned,hkept.trans ?_⟩
    rw [keptAll_perform hfresh h op,NeverReplaces,and_assoc]

theorem closedOnce_destroy (h : Owned s) : ClosedOnce (destroy s) ↔ KeptAll s := by
  have hlog : handleLog (destroy s) = nullable .release (holder s ()) (handleLog s.calls) := by
    cases hx : s.self.mysqlHandler with
    | none => simp [destroy,holder,hx,nullable]
    | some c =>
      simp only [destroy,holder,hx]
      exact handleLog_cons _ _
  have hsound := h.sound.releaseNullable ()
  rw [ClosedOnce,hlog,hsound.releasedOnce_iff fun i => by simp]
  exact kept_releaseNullable ()

end Invariants

/-- Every handle that `mysql_init` has returned is closed exactly once, and not used after
that, if and only if `options_configure` has never been called while the object had one. -/
theorem handles_closed_once_iff (C : Client) (hfresh : InitFresh C) (isConfigured : Bool)
    (authMysqlHostname authMysqlPassword authMysqlUsername : String) (authMysqlPort : UInt16)
    (ops : List Operation) :
    let s : Conn := ⟨construct isConfigured authMysqlHostname authMysqlPassword
      authMysqlUsername authMysqlPort,[]⟩
    ClosedOnce (destroy (run C s ops)) ↔ NeverReplaces C s ops := by
  obtain ⟨howned,hkept⟩ := owned_construct isConfigured authMysqlHostname authMysqlPassword
    authMysqlUsername authMysqlPort
  obtain ⟨hend,hrun⟩ := keptAll_run hfresh howned ops
  exact (closedOnce_destroy hend).trans (hrun.trans (and_iff_right hkept))

section Samples

open ConnectionTracking (sampleClient)

def freshClient : Client :=
  { sampleClient with init := fun h => some (Sqlite.beyond (acquired (handleLog h))) }

theorem freshClient_initFresh : InitFresh freshClient := by
  intro h c hc
  cases hc
  exact Sqlite.beyond_not_mem _

def newObject : Conn := ⟨construct true "localhost" "O20100829o" "root" 3306,[]⟩

theorem handles_closed_once_iff_configured :
    ClosedOnce (destroy (run freshClient newObject
      [.mysqlOptionsSet true false false,.optionsConfigure,.connect (.plain (some "test") 0),
        .connect (.retry (some "test") 0 5 10)])) :=
  (handles_closed_once_iff freshClient freshClient_initFresh true "localhost" "O20100829o" "root"
    3306 _).mpr ⟨nofun,fun _ => rfl,nofun,nofun,trivial⟩

/-- The second `options_configure` replaces the first handle, which is never closed. -/
theorem first_handle_never_closed :
    handleLog (destroy (run freshClient newObject [.optionsConfigure,.optionsConfigure])) =
      [.release 2,.acquire 2,.acquire 1] ∧
    ¬ClosedOnce (destroy (run freshClient newObject [.optionsConfigure,.optionsConfigure])) := by
  refine ⟨rfl,fun h => ?_⟩
  have honce := h.once 1 (by decide)
  exact absurd honce (by decide)

end Samples

end MysqlHandles
end AlephSql
