import AlephSql.MysqlHandles

/-! A `sql_database_mysql` over its whole life: any number of calls of `mysql_connect_database`,
then its destruction. Each call gives up the manager of the one before. -/
namespace AlephSql
namespace MysqlSession

open Mysql Custody MysqlDatabase MysqlHandles
open ConnectionTracking (ConnectCall connect connects Connected)

/-- The arguments of one call, with what its new object finds in `M_is_configured`. -/
structure Request where
  isConfigured : Bool
  service : Service
  option : MysqlOption
  deriving DecidableEq, Repr

def ask (C : Client) (d : Db) (r : Request) : Bool × Db :=
  mysqlConnectDatabase C r.isConfigured d r.service r.option

def session (C : Client) (rs : List Request) : Db := rs.foldl (fun d r => (ask C d r).2) {}

/-- The manager that the object holds; one without a handle stands for none. -/
def managerOf (d : Db) : Conn :=
  ⟨d.mysqlConnectManager.getD (construct false "" "" "" 0),d.calls⟩

/-- At no moment there were two handles returned by `mysql_init` and not closed. -/
def OneAtATime (h : History) : Prop :=
  ∀ h', h' <:+ h → ∀ c c', c ∈ acquired (handleLog h') → c ∉ released (handleLog h') →
    c' ∈ acquired (handleLog h') → c' ∉ released (handleLog h') → c = c'

/-- What the object and its manager keep over every call. -/
structure Orderly (s : Conn) : Prop where
  owned : Owned s
  kept : KeptAll s
  single : OneAtATime s.calls
  known : ∀ e ∈ s.calls, ∀ c, connects e = some c → c ∈ acquired (handleLog s.calls)

section Orderly

variable {C : Client} {s : Conn} {d : Db}

theorem only_handle (hk : KeptAll s) {c : HandleId} (hc : c ∈ acquired (handleLog s.calls))
    (hr : c ∉ released (handleLog s.calls)) : s.self.mysqlHandler = some c := by
  obtain ⟨_,hi⟩ := hk c hc hr
  exact hi

theorem OneAtATime.cons (hk : KeptAll s) {e : Mysql.Event} {h : History} (hs : s.calls = e :: h)
    (hone : OneAtATime h) : OneAtATime s.calls := by
  intro h' hsuffix c c' hc hr hc' hr'
  rw [hs] at hsuffix
  rcases List.suffix_cons_iff.mp hsuffix with rfl | hsuffix
  · rw [← hs] at hc hr hc' hr'
    exact Option.some.inj ((only_handle hk hc hr).symm.trans (only_handle hk hc' hr'))
  · exact hone h' hsuffix c c' hc hr hc' hr'

theorem connects_eq {e : Mysql.Event} {c : HandleId} (h : connects e = some c) :
    ∃ l, e = .realConnect (some c) l true := by
  cases e with
  | realConnect x l success =>
    cases success with
    | true => exact ⟨l,by rw [show x = some c from h]⟩
    | false => cases h
  | _ => cases h

theorem acquired_mono (e : Mysql.Event) (h : History) {c : HandleId}
    (hc : c ∈ acquired (handleLog h)) : c ∈ acquired (handleLog (e :: h)) := by
  rw [handleLog_cons]
  cases handleEvent e with
  | none => exact hc
  | some x =>
    cases x with
    | acquire y => exact List.mem_cons_of_mem _ hc
    | use y => exact hc
    | release y => exact hc

theorem Orderly.log (h : Orderly s) {e : Mysql.Event}
    (he : handleEvent e = none ∨ handleEvent e = s.self.mysqlHandler.map .use) :
    Orderly (s.log e) := by
  have hkept := (keptAll_log he).mpr h.kept
  refine ⟨h.owned.log he,hkept,OneAtATime.cons hkept rfl h.single,fun x hx c hc => ?_⟩
  rcases List.mem_cons.mp hx with rfl | hx
  · obtain ⟨l,rfl⟩ := connects_eq hc
    rcases he with he | he
    · cases he
    · have hhandle : s.self.mysqlHandler = some c := by
        cases hx : s.self.mysqlHandler with
        | none => simp [handleEvent,hx] at he
        | some y => simpa [handleEvent,hx,eq_comm] using he
      exact acquired_mono _ _ (h.owned.sound.live () c hhandle).1
  · exact acquired_mono _ _ (h.known x hx c hc)

theorem release_eq (d : Db) : release d = destroy (managerOf d) := by
  obtain ⟨manager,calls⟩ := d
  cases manager <;> rfl

theorem handleLog_destroy :
    handleLog (destroy s) = nullable .release (holder s ()) (handleLog s.calls) := by
  cases hx : s.self.mysqlHandler with
  | none => simp [destroy,holder,hx,nullable]
  | some c =>
    simp only [destroy,holder,hx]
    exact handleLog_cons _ _

theorem holder_none {m : MysqlConnect} (hm : m.mysqlHandler = none) (h : History) :
    holder ⟨m,h⟩ = Function.update (holder s) () none := by
  funext i
  simp [holder,hm]

/-- A new manager after the old one has been given up. -/
theorem Orderly.renew (h : Orderly s) {m : MysqlConnect} (hm : m.mysqlHandler = none)
    (hconnectd : m.connectd = false) : Orderly ⟨m,destroy s⟩ := by
  have howned : Owned ⟨m,destroy s⟩ := by
    refine ⟨?_,hconnectd⟩
    rw [holder_none hm,handleLog_destroy]
    exact h.owned.sound.releaseNullable ()
  have hkept : KeptAll ⟨m,destroy s⟩ := by
    rw [KeptAll,holder_none hm,handleLog_destroy]
    exact h.kept.releaseNullable ()
  cases hx : s.self.mysqlHandler with
  | none =>
    have hsame : destroy s = s.calls := by simp [destroy,hx]
    exact ⟨howned,hkept,by rw [hsame]; exact h.single,by rw [hsame]; exact h.known⟩
  | some c =>
    have hsame : destroy s = .close (some c) :: s.calls := by simp [destroy,hx]
    refine ⟨howned,hkept,OneAtATime.cons hkept hsame h.single,fun e he x hc => ?_⟩
    rw [hsame] at he ⊢
    rcases List.mem_cons.mp he with rfl | he
    · cases hc
    · exact acquired_mono _ _ (h.known e he x hc)

theorem Orderly.warned (h : Orderly s) : Orderly (warned s) := by
  unfold MysqlDatabase.warned
  split
  · exact h.log (.inl rfl)
  · exact h

theorem Orderly.started (hfresh : InitFresh C) (h : Orderly s)
    (hnone : s.self.mysqlHandler = none) : Orderly (started C s) := by
  have hkept : KeptAll (MysqlHandles.started C s) := by
    rw [KeptAll,holder_started,handleLog_started]
    exact h.kept.acquireNullable hnone _
  have howned : Owned (MysqlHandles.started C s) := by
    refine ⟨?_,h.owned.connectd⟩
    rw [holder_started,handleLog_started]
    exact h.owned.sound.acquireNullable () (initAnswer_fresh hfresh)
  refine ⟨howned,hkept,OneAtATime.cons hkept rfl h.warned.single,fun e he c hc => ?_⟩
  rcases List.mem_cons.mp he with rfl | he
  · cases hc
  · exact acquired_mono _ _ (h.warned.known e he c hc)

theorem Orderly.configure (hfresh : InitFresh C) (h : Orderly s)
    (hnone : s.self.mysqlHandler = none) : Orderly (optionsConfigure C s) :=
  configure_invariant (h.started hfresh hnone) fun _ _ he hu => hu.log he

theorem Orderly.connect (h : Orderly s) (call : ConnectCall) : Orderly (connect C s call).2 :=
  connect_invariant h h.owned.connectd
    (fun _ _ hself he hu => hu.log (by rwa [hself])) call

end Orderly

section Session

variable {C : Client}

theorem prepared_fields (b : Bool) (d : Db) (v : Service) (o : MysqlOption) :
    (prepared b d v o).self.mysqlHandler = none ∧ (prepared b d v o).self.connectd = false ∧
      (prepared b d v o).calls = destroy (managerOf d) := by
  rw [prepared,optionsSet_eq]
  exact ⟨rfl,rfl,release_eq d⟩

theorem orderly_prepared {d : Db} (h : Orderly (managerOf d)) (r : Request) :
    Orderly (prepared r.isConfigured d r.service r.option) := by
  obtain ⟨hnone,hconnectd,hcalls⟩ := prepared_fields r.isConfigured d r.service r.option
  have hrenewed := h.renew hnone hconnectd
  rwa [← hcalls] at hrenewed

theorem orderly_configured (hfresh : InitFresh C) {d : Db} (h : Orderly (managerOf d))
    (r : Request) :
    Orderly (optionsConfigure C (prepared r.isConfigured d r.service r.option)) :=
  (orderly_prepared h r).configure hfresh (prepared_fields _ _ _ _).1

theorem orderly_ask (hfresh : InitFresh C) {d : Db} (h : Orderly (managerOf d)) (r : Request) :
    Orderly (managerOf (ask C d r).2) :=
  (orderly_configured hfresh h r).connect _

theorem orderly_session (hfresh : InitFresh C) (rs : List Request) :
    Orderly (managerOf (session C rs)) := by
  have hrun : ∀ d, Orderly (managerOf d) →
      Orderly (managerOf (rs.foldl (fun d r => (ask C d r).2) d)) := by
    induction rs with
    | nil => exact fun d h => h
    | cons r rs ih => exact fun d h => ih _ (orderly_ask hfresh h r)
  refine hrun {} ⟨⟨sound_nil,rfl⟩,kept_nil,fun h' hsuffix c c' hc => ?_,by simp [managerOf]⟩
  rw [List.suffix_nil.mp hsuffix] at hc
  cases hc

end Session

theorem session_closes_handles (C : Client) (hfresh : InitFresh C) (rs : List Request) :
    ClosedOnce (release (session C rs)) ∧ OneAtATime (release (session C rs)) := by
  have h := orderly_session hfresh rs
  rw [release_eq]
  refine ⟨(closedOnce_destroy h.owned).mpr h.kept,?_⟩
  exact (h.renew (m := construct false "" "" "" 0) rfl rfl).single

theorem session_closes_handles_twice :
    ClosedOnce (release (session freshClient [⟨false,localService,{}⟩,
      ⟨true,localService,{ mysqlEnableRetry := false, mysqlEnableTls := true }⟩])) ∧
    OneAtATime (release (session freshClient [⟨false,localService,{}⟩,
      ⟨true,localService,{ mysqlEnableRetry := false, mysqlEnableTls := true }⟩])) :=
  session_closes_handles freshClient freshClient_initFresh _

section Result

variable {C : Client} {s t : Conn} {l : Login}

/-- From `s` to `t` no attempt has succeeded. -/
structure Quiet (s t : Conn) : Prop where
  self : t.self = s.self
  calls : ∃ es, t.calls = es ++ s.calls ∧ ∀ e ∈ es, connects e = none

/-- From `s` to `t` an attempt on the handle of `s` has succeeded if `result` says so, and only
then. -/
structure Tells (s t : Conn) (result : Bool) : Prop where
  self : t.self = s.self
  calls : ∃ es, t.calls = es ++ s.calls ∧
    (result = true → ∃ e ∈ es, connects e = s.self.mysqlHandler) ∧
    ∀ e ∈ es, ∀ c, connects e = some c → result = true

theorem Quiet.refl : Quiet s s := ⟨rfl,[],rfl,by simp⟩

theorem Quiet.log (h : Quiet s t) {e : Mysql.Event} (he : connects e = none) :
    Quiet s (t.log e) := by
  obtain ⟨es,hes,hall⟩ := h.calls
  refine ⟨h.self,e :: es,congrArg (e :: ·) hes,fun x hx => ?_⟩
  rcases List.mem_cons.mp hx with rfl | hx
  · exact he
  · exact hall x hx

theorem Quiet.pause (h : Quiet s t) (attempt : ℕ) : Quiet s (pause C t attempt) := by
  unfold Mysql.pause
  split
  · exact h.log rfl
  · exact h

theorem Quiet.fails (h : Quiet s t) : Tells s t false := by
  obtain ⟨es,hes,hall⟩ := h.calls
  refine ⟨h.self,es,hes,nofun,fun e he c hc => ?_⟩
  rw [hall e he] at hc
  cases hc

theorem Quiet.succeeds (h : Quiet s t) (hresult : (t.realConnect C l).1 = true) :
    Tells s (t.realConnect C l).2 true := by
  obtain ⟨es,hes,-⟩ := h.calls
  have hlog : (t.realConnect C l).2 = t.log (.realConnect t.self.mysqlHandler l true) :=
    congrArg (fun b => t.log (.realConnect t.self.mysqlHandler l b)) hresult
  rw [hlog]
  refine ⟨h.self,_ :: es,congrArg (_ :: ·) hes,fun _ => ⟨_,List.mem_cons_self,?_⟩,
    fun _ _ _ _ => rfl⟩
  rw [← h.self]
  rfl

theorem Quiet.attempt (h : Quiet s t) (hresult : (t.realConnect C l).1 = false) :
    Quiet s (t.realConnect C l).2 := by
  have hlog : (t.realConnect C l).2 = t.log (.realConnect t.self.mysqlHandler l false) :=
    congrArg (fun b => t.log (.realConnect t.self.mysqlHandler l b)) hresult
  rw [hlog]
  exact h.log rfl

/-- The loop returns true if and only if one of its attempts succeeds. -/
theorem Quiet.retryLoop (h : Quiet s t) (rounds attempt : ℕ) :
    Tells s (retryLoop C l rounds attempt t).2 (retryLoop C l rounds attempt t).1 := by
  induction rounds generalizing attempt t with
  | zero => exact h.fails
  | succ rounds ih =>
    have hpaused := h.pause (C := C) attempt
    unfold Mysql.retryLoop
    dsimp only
    split
    · next hresult => exact hpaused.succeeds hresult
    · next hresult =>
      have hfailed := hpaused.attempt (by simpa using hresult)
      exact ih ((hfailed.log rfl).log rfl) (attempt+1)

theorem connect_tells (h : s.self.connectd = false) (call : ConnectCall) :
    Tells s (connect C s call).2 (connect C s call).1 := by
  cases call with
  | plain name flags =>
    have hcall : connect C s (.plain name flags) =
        let first := s.realConnect C (s.login name flags)
        if first.1 then (true,first.2)
        else
          let message := first.2.error C
          (false,message.2.log (.logger .error message.1)) := by
      simp only [connect,mysqlConnectToService,ConnectionTracking.isConnectd_eq h,
        ConnectionTracking.closeConnected_eq h]
      rfl
    rw [hcall]
    dsimp only
    split
    · next hresult => exact Quiet.refl.succeeds hresult
    · next hresult =>
      exact (((Quiet.refl.attempt (by simpa using hresult)).log rfl).log rfl).fails
  | retry name flags timeout count =>
    have htimed : Quiet s (s.options (.connectTimeout timeout)) := Quiet.refl.log rfl
    rw [connect,ConnectionTracking.connectToServiceRetry_eq h]
    dsimp only
    split
    · next hresult => exact htimed.succeeds hresult
    · next hresult => exact (htimed.attempt (by simpa using hresult)).retryLoop _ _

theorem Orderly.unconnected (hfresh : InitFresh C) (h : Orderly s) {c : HandleId}
    (hc : (optionsConfigure C s).self.mysqlHandler = some c) :
    ∀ e ∈ (optionsConfigure C s).calls, connects e ≠ some c := by
  intro e he hconnects
  cases hinit : C.init (MysqlDatabase.warned s).calls with
  | none =>
    rw [configure_failed hinit] at hc
    cases hc
  | some x =>
    rw [configure_eq hinit] at hc he
    obtain rfl : x = c := Option.some.inj hc
    rcases List.mem_append.mp he with he | he
    · obtain ⟨option,-,rfl⟩ := List.mem_map.mp (List.mem_reverse.mp he)
      cases hconnects
    · rcases List.mem_cons.mp he with rfl | he
      · cases hconnects
      · exact hfresh _ x hinit (h.warned.known e he x hconnects)

end Result

theorem last_result_iff_connected (C : Client) (hfresh : InitFresh C) (rs : List Request)
    (r : Request) (c : HandleId)
    (hc : (managerOf (ask C (session C rs) r).2).self.mysqlHandler = some c) :
    ((ask C (session C rs) r).1 = true ↔ Connected (managerOf (ask C (session C rs) r).2)) ∧
      c ∉ released (handleLog (ask C (session C rs) r).2.calls) := by
  have hsession := orderly_session hfresh rs
  have htells := connect_tells (C := C) (orderly_configured hfresh hsession r).owned.connectd
    (connectCall r.service r.option)
  obtain ⟨es,hes,hsuccess,hfailure⟩ := htells.calls
  have hhandle : (optionsConfigure C (prepared r.isConfigured (session C rs) r.service
      r.option)).self.mysqlHandler = some c :=
    (congrArg MysqlConnect.mysqlHandler htells.self).symm.trans hc
  refine ⟨⟨fun hresult => ?_,?_⟩,
    ((orderly_ask hfresh hsession r).owned.sound.live () c hc).2⟩
  · obtain ⟨e,he,hconnects⟩ := hsuccess hresult
    refine ⟨c,hc,e,?_,hconnects.trans hhandle⟩
    exact hes ▸ List.mem_append_left _ he
  · rintro ⟨c',hc',e,he,hconnects⟩
    obtain rfl : c = c' := Option.some.inj (hc.symm.trans hc')
    have hmem : e ∈ es ++ (optionsConfigure C (prepared r.isConfigured (session C rs) r.service
        r.option)).calls := hes ▸ he
    rcases List.mem_append.mp hmem with he | he
    · exact hfailure e he c hconnects
    · exact absurd hconnects ((orderly_prepared hsession r).unconnected hfresh hhandle e he)

theorem last_result_iff_connected_twice :
    ((ask freshClient (session freshClient [⟨false,localService,{}⟩]) ⟨true,localService,{}⟩).1 =
        true ↔
      Connected (managerOf (ask freshClient (session freshClient [⟨false,localService,{}⟩])
        ⟨true,localService,{}⟩).2)) ∧
    2 ∉ released (handleLog (ask freshClient (session freshClient [⟨false,localService,{}⟩])
      ⟨true,localService,{}⟩).2.calls) :=
  last_result_iff_connected freshClient freshClient_initFresh _ _ 2 (by decide)

end MysqlSession
end AlephSql
