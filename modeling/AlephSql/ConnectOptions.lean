import AlephSql.MysqlDatabase

/-! Which fields of the option record reach the handle: the certificate and the key of TLS, and
the timeouts. -/
namespace AlephSql
namespace ConnectOptions

open Mysql ConnectionTracking MysqlDatabase
open Sqlite (cString)

/-- What happens before the first `mysql_real_connect`, in order. -/
def beforeConnect (es : History) : List Event := es.reverse.takeWhile fun e => !isRealConnect e

/-- An option that is set, with its handle. -/
def setting : Event → Option (Option HandleId × HandleOption)
  | .options handle option => some (handle,option)
  | _ => none

def settingsOn (handle : Option HandleId) (es : List Event) : List HandleOption :=
  (es.filterMap setting).filterMap fun s => if s.1 = handle then some s.2 else none

section Course

variable {b : Bool} {d : Db} {v : Service} {o : MysqlOption} {c : HandleId} {x : Option HandleId}

theorem setting_opening : (opening b d).filterMap setting = [] := by
  simp only [opening,List.filterMap_append]
  split <;> split <;> rfl

theorem setting_earlier : (earlier (some c) b d v o).filterMap setting =
    ((settings v o).map fun option => (some c,option)).reverse := by
  simp [earlier,setting_opening,List.filterMap_cons,setting,List.filterMap_map,Function.comp_def]

theorem setting_attempts {l : Login} {later : History} (h : ∀ e ∈ later, Attempts x l e) :
    later.filterMap setting = [] := by
  rw [List.filterMap_eq_nil_iff]
  intro e he
  cases h e he <;> rfl

theorem not_realConnect_opening {e : Event} (he : e ∈ opening b d) : isRealConnect e = false := by
  simp only [opening,List.mem_append] at he
  rcases he with he | he <;> split at he <;> simp_all [isRealConnect]

theorem not_realConnect_earlier {e : Event} (he : e ∈ earlier x b d v o) :
    isRealConnect e = false := by
  cases x with
  | none =>
    simp only [earlier,List.mem_append,List.mem_cons] at he
    rcases he with he | rfl | rfl | he
    · split at he <;> simp_all [isRealConnect]
    · rfl
    · rfl
    · exact not_realConnect_opening he
  | some c =>
    simp only [earlier,List.mem_append,List.mem_reverse,List.mem_map,List.mem_cons] at he
    rcases he with ⟨option,-,rfl⟩ | rfl | he
    · rfl
    · rfl
    · exact not_realConnect_opening he

theorem beforeConnect_eq (later : History) (l : Login) (success : Bool) :
    beforeConnect (later ++ .realConnect x l success :: earlier x b d v o) =
      (earlier x b d v o).reverse := by
  have hkept : ∀ e ∈ (earlier x b d v o).reverse, (!isRealConnect e) = true := by
    intro e he
    simp [not_realConnect_earlier (List.mem_reverse.mp he)]
  rw [beforeConnect,List.reverse_append,List.reverse_cons,List.append_assoc,
    List.takeWhile_append_of_pos hkept]
  simp [isRealConnect]

end Course

section Tls

/-- The certificate and the key are set as the record says. -/
structure TlsAsGiven (o : MysqlOption) (set : List HandleOption) : Prop where
  certificate : (∃ path, .sslCa path ∈ set) ↔
    o.mysqlEnableTls = true ∧ o.mysqlEnableCustomCreat = true
  certificatePath : ∀ path, .sslCa path ∈ set → path = cString o.mysqlCACreatPath
  key : (∃ key, .sslKey key ∈ set) ↔
    o.mysqlEnableTls = true ∧ o.mysqlEnableCustomTlsKey = true
  keyValue : ∀ key, .sslKey key ∈ set → key = cString o.mysqlTlsKey

/-- With TLS, a custom key comes with a custom certificate and is the password, and the path of
a custom certificate is empty. -/
structure TlsHarmless (v : Service) (o : MysqlOption) : Prop where
  certificate : o.mysqlEnableTls = true → o.mysqlEnableCustomCreat = true →
    cString o.mysqlCACreatPath = ""
  key : o.mysqlEnableTls = true → o.mysqlEnableCustomTlsKey = true →
    o.mysqlEnableCustomCreat = true ∧ cString o.mysqlTlsKey = cString v.mysqlServicePassword

theorem settings_eq (v : Service) (o : MysqlOption) :
    settings v o = (if o.mysqlEnableTls ∧ o.mysqlEnableCustomTlsKey then
        [.sslCa "",.sslKey (cString v.mysqlServicePassword)]
      else if o.mysqlEnableTls ∧ o.mysqlEnableCustomCreat then [.sslCa ""] else []) ++
        if o.mysqlEnableRetry then [.connectTimeout o.mysqlConnectTiemout] else [] := by
  rw [settings,tlsOptions_prepared]

/-- A custom key brings a certificate with it, and no path is ever passed on. -/
theorem sslCa_mem {v : Service} {o : MysqlOption} {path : String} :
    .sslCa path ∈ settings v o ↔ o.mysqlEnableTls = true ∧
      (o.mysqlEnableCustomTlsKey = true ∨ o.mysqlEnableCustomCreat = true) ∧ path = "" := by
  rw [settings_eq]
  cases o.mysqlEnableTls <;> cases o.mysqlEnableCustomTlsKey <;> cases o.mysqlEnableCustomCreat <;>
    cases o.mysqlEnableRetry <;> simp

theorem sslKey_mem {v : Service} {o : MysqlOption} {key : String} :
    .sslKey key ∈ settings v o ↔ o.mysqlEnableTls = true ∧ o.mysqlEnableCustomTlsKey = true ∧
      key = cString v.mysqlServicePassword := by
  rw [settings_eq]
  cases o.mysqlEnableTls <;> cases o.mysqlEnableCustomTlsKey <;> cases o.mysqlEnableCustomCreat <;>
    cases o.mysqlEnableRetry <;> simp

theorem tlsAsGiven_settings (v : Service) (o : MysqlOption) :
    TlsAsGiven o (settings v o) ↔ TlsHarmless v o := by
  constructor
  · intro h
    refine ⟨fun htls hcreat => ?_,fun htls hkey => ⟨?_,?_⟩⟩
    · exact (h.certificatePath "" (sslCa_mem.mpr ⟨htls,.inr hcreat,rfl⟩)).symm
    · exact (h.certificate.mp ⟨"",sslCa_mem.mpr ⟨htls,.inl hkey,rfl⟩⟩).2
    · exact (h.keyValue _ (sslKey_mem.mpr ⟨htls,hkey,rfl⟩)).symm
  · intro h
    have hcreat : o.mysqlEnableTls = true →
        o.mysqlEnableCustomTlsKey = true ∨ o.mysqlEnableCustomCreat = true →
          o.mysqlEnableCustomCreat = true :=
      fun htls hor => hor.elim (fun hkey => (h.key htls hkey).1) id
    constructor
    · constructor
      · rintro ⟨path,hpath⟩
        obtain ⟨htls,hor,-⟩ := sslCa_mem.mp hpath
        exact ⟨htls,hcreat htls hor⟩
      · rintro ⟨htls,hcustom⟩
        exact ⟨"",sslCa_mem.mpr ⟨htls,.inr hcustom,rfl⟩⟩
    · intro path hpath
      obtain ⟨htls,hor,rfl⟩ := sslCa_mem.mp hpath
      exact (h.certificate htls (hcreat htls hor)).symm
    · constructor
      · rintro ⟨key,hkey⟩
        obtain ⟨htls,hcustom,-⟩ := sslKey_mem.mp hkey
        exact ⟨htls,hcustom⟩
      · rintro ⟨htls,hcustom⟩
        exact ⟨_,sslKey_mem.mpr ⟨htls,hcustom,rfl⟩⟩
    · intro key hkey
      obtain ⟨htls,hcustom,rfl⟩ := sslKey_mem.mp hkey
      exact (h.key htls hcustom).2.symm

theorem settingsOn_beforeConnect {b : Bool} {d : Db} {v : Service} {o : MysqlOption} {c : HandleId}
    (later : History) (l : Login) (success : Bool) :
    settingsOn (some c)
      (beforeConnect (later ++ .realConnect (some c) l success :: earlier (some c) b d v o)) =
        settings v o := by
  rw [beforeConnect_eq,settingsOn,List.filterMap_reverse,setting_earlier,List.reverse_reverse,
    List.filterMap_map]
  simp

/-- The TLS options of a call reach its handle as given exactly when they are harmless. -/
theorem tls_as_given_iff (C : Client) (hinit : ∀ h, C.init h ≠ none) (isConfigured : Bool) (d : Db)
    (service : Service) (o : MysqlOption) : ∃ es c,
    (mysqlConnectDatabase C isConfigured d service o).2.calls = es ++ d.calls ∧
    (mysqlConnectDatabase C isConfigured d service o).2.mysqlConnectManager.bind
      MysqlConnect.mysqlHandler = some c ∧
    (TlsAsGiven o (settingsOn (some c) (beforeConnect es)) ↔ TlsHarmless service o) := by
  obtain ⟨c,hc⟩ := Option.ne_none_iff_exists'.mp (hinit (opening isConfigured d ++ d.calls))
  obtain ⟨later,hcalls,-,-,hmanager⟩ := mysqlConnectDatabase_calls (v := service) (o := o) hc
  rw [← List.cons_append,← List.append_assoc] at hcalls
  refine ⟨_,c,hcalls,?_,?_⟩
  · rw [hmanager,Option.bind_some]
    exact held_fields.1
  · rw [settingsOn_beforeConnect]
    exact tlsAsGiven_settings service o

theorem tls_as_given_iff_empty_path : ∃ es c,
    (mysqlConnectDatabase sampleClient false {} localService
      { mysqlEnableTls := true, mysqlEnableCustomCreat := true }).2.calls = es ++ [] ∧
    TlsAsGiven { mysqlEnableTls := true, mysqlEnableCustomCreat := true }
      (settingsOn (some c) (beforeConnect es)) := by
  obtain ⟨es,c,hcalls,-,hiff⟩ := tls_as_given_iff sampleClient (fun h => by simp [sampleClient])
    false {} localService { mysqlEnableTls := true, mysqlEnableCustomCreat := true }
  exact ⟨es,c,hcalls,hiff.mpr ⟨fun _ _ => by decide,by simp⟩⟩

/-- With a custom key alone, a certificate with an empty path is set, and the password as key. -/
theorem password_set_as_key :
    settingsOn (some 0) (beforeConnect (mysqlConnectDatabase sampleClient false {} localService
      { mysqlEnableTls := true, mysqlEnableCustomTlsKey := true,
        mysqlTlsKey := "client-key.pem" }).2.calls) =
      [.sslCa "",.sslKey "O20100829o",.connectTimeout 5] ∧
    ¬TlsAsGiven
      { mysqlEnableTls := true, mysqlEnableCustomTlsKey := true, mysqlTlsKey := "client-key.pem" }
      (settingsOn (some 0) (beforeConnect (mysqlConnectDatabase sampleClient false {} localService
        { mysqlEnableTls := true, mysqlEnableCustomTlsKey := true,
          mysqlTlsKey := "client-key.pem" }).2.calls)) := by
  have hset : settingsOn (some 0) (beforeConnect (mysqlConnectDatabase sampleClient false {}
      localService { mysqlEnableTls := true, mysqlEnableCustomTlsKey := true,
                     mysqlTlsKey := "client-key.pem" }).2.calls) =
      [.sslCa "",.sslKey "O20100829o",.connectTimeout 5] := by decide
  refine ⟨hset,fun h => ?_⟩
  have hkey := h.keyValue "O20100829o" (by rw [hset]; decide)
  exact absurd hkey (by decide)

end Tls

section Timeouts

structure TimeoutsSet (o : MysqlOption) (handle : Option HandleId) (es : List Event) : Prop where
  connect : .connectTimeout o.mysqlConnectTiemout ∈ settingsOn handle es
  read : .readTimeout o.mysqlReadTimeout ∈ settingsOn handle es
  write : .writeTimeout o.mysqlWriteTimeout ∈ settingsOn handle es

def connecting : Event → Option (Option HandleId × Login)
  | .realConnect handle login _ => some (handle,login)
  | _ => none

/-- The same result, the same arguments of `mysql_real_connect`, the same options on the handle,
and in both calls the timeouts set on it before the first attempt. -/
structure AgreeAndHonour (o : MysqlOption) (handle : Option HandleId)
    (plain retry : Bool × History) : Prop where
  result : plain.1 = retry.1
  connecting : plain.2.filterMap connecting = retry.2.filterMap connecting
  settings : settingsOn handle plain.2 = settingsOn handle retry.2
  plain : TimeoutsSet o handle (beforeConnect plain.2)
  retry : TimeoutsSet o handle (beforeConnect retry.2)

def withRetry (o : MysqlOption) (enable : Bool) : MysqlOption :=
  { o with mysqlEnableRetry := enable }

variable {b : Bool} {d : Db} {v : Service} {o : MysqlOption} {x : Option HandleId}

theorem readTimeout_not_set (handle : Option HandleId) (seconds : UInt32) :
    .readTimeout seconds ∉ settingsOn handle (earlier x b d v o).reverse := by
  intro hmem
  simp only [settingsOn,List.mem_filterMap,List.mem_reverse] at hmem
  obtain ⟨s,⟨e,he,hs⟩,hoption⟩ := hmem
  have hset : e = .options s.1 (.readTimeout seconds) := by
    cases e with
    | options h option =>
      cases hs
      simp only [Option.ite_none_right_eq_some,Option.some.injEq] at hoption
      rw [hoption.2]
    | _ => cases hs
  subst hset
  cases x with
  | none =>
    simp only [earlier,List.mem_append,List.mem_cons] at he
    rcases he with he | he | he | he
    · split at he <;> simp at he
    · cases he
    · cases he
    · exact absurd (mem_opening he).1 (by simp [usedHandle])
  | some c =>
    simp only [earlier,List.mem_append,List.mem_reverse,List.mem_map,List.mem_cons] at he
    rcases he with ⟨option,hoption,he⟩ | he | he
    · injection he with _ hread
      subst hread
      rw [settings_eq] at hoption
      revert hoption
      split_ifs <;> simp
    · cases he
    · exact absurd (mem_opening he).1 (by simp [usedHandle])

theorem connecting_earlier : (earlier x b d v o).filterMap connecting = [] := by
  rw [List.filterMap_eq_nil_iff]
  intro e he
  have hother := not_realConnect_earlier he
  cases e with
  | realConnect => cases hother
  | _ => rfl

/-- Neither path sets the read timeout, whatever the record, the arguments and the server. -/
theorem timeouts_never_honoured (C : Client) (isConfigured : Bool) (d : Db) (service : Service)
    (o : MysqlOption) : ∃ plain retry,
    (mysqlConnectDatabase C isConfigured d service (withRetry o false)).2.calls =
      plain ++ d.calls ∧
    (mysqlConnectDatabase C isConfigured d service (withRetry o true)).2.calls =
      retry ++ d.calls ∧
    ∀ handle, ¬AgreeAndHonour o handle
      ((mysqlConnectDatabase C isConfigured d service (withRetry o false)).1,plain)
      ((mysqlConnectDatabase C isConfigured d service (withRetry o true)).1,retry) := by
  obtain ⟨later,hplain,-⟩ := mysqlConnectDatabase_calls (C := C) (b := isConfigured) (d := d)
    (v := service) (o := withRetry o false) rfl
  obtain ⟨later',hretry,-⟩ := mysqlConnectDatabase_calls (C := C) (b := isConfigured) (d := d)
    (v := service) (o := withRetry o true) rfl
  rw [← List.cons_append,← List.append_assoc] at hplain hretry
  refine ⟨_,_,hplain,hretry,fun handle h => ?_⟩
  have hread := h.plain.read
  rw [beforeConnect_eq] at hread
  exact readTimeout_not_set _ _ hread

/-- What the two paths do agree in when the first attempt succeeds: the result and the arguments
of `mysql_real_connect`. The connect timeout is set by the retrying path alone. -/
theorem plain_retry_agree {C : Client} {c : HandleId}
    (hinit : C.init (opening b d ++ d.calls) = some c)
    (hplain : firstSuccess C (some c) b d v (withRetry o false) = true)
    (hretry : firstSuccess C (some c) b d v (withRetry o true) = true) :
    (mysqlConnectDatabase C b d v (withRetry o false)).1 = true ∧
    (mysqlConnectDatabase C b d v (withRetry o true)).1 = true ∧
    (mysqlConnectDatabase C b d v (withRetry o true)).2.calls.filterMap connecting =
      (mysqlConnectDatabase C b d v (withRetry o false)).2.calls.filterMap connecting ∧
    (mysqlConnectDatabase C b d v (withRetry o true)).2.calls.filterMap setting =
      (some c,.connectTimeout o.mysqlConnectTiemout) ::
        (mysqlConnectDatabase C b d v (withRetry o false)).2.calls.filterMap setting := by
  obtain ⟨_,hcalls,-,hfirst,-⟩ := mysqlConnectDatabase_calls (v := v) (o := withRetry o false) hinit
  obtain ⟨_,hcalls',-,hfirst',-⟩ := mysqlConnectDatabase_calls (v := v) (o := withRetry o true)
    hinit
  obtain ⟨rfl,hresult⟩ := hfirst hplain
  obtain ⟨rfl,hresult'⟩ := hfirst' hretry
  have hmore : settings v (withRetry o true) =
      settings v (withRetry o false) ++ [.connectTimeout o.mysqlConnectTiemout] := by
    simp [settings_eq,withRetry]
  refine ⟨hresult,hresult',?_,?_⟩
  · rw [hcalls,hcalls']
    simp [connecting,connecting_earlier]
  · rw [hcalls,hcalls',List.nil_append,List.nil_append,List.filterMap_cons_none rfl,
      List.filterMap_cons_none rfl,List.filterMap_append,List.filterMap_append,setting_earlier,
      setting_earlier,hmore]
    simp

/-- A server that lets everybody in: no read timeout is set, and without retries no connect
timeout either. -/
theorem connect_timeout_dropped :
    settingsOn (some 0) (beforeConnect (mysqlConnectDatabase sampleClient false {} localService
      { mysqlEnableRetry := false, mysqlConnectTiemout := 10 }).2.calls) = [] ∧
    settingsOn (some 0) (beforeConnect (mysqlConnectDatabase sampleClient false {} localService
      { mysqlEnableRetry := true, mysqlConnectTiemout := 10 }).2.calls) = [.connectTimeout 10] ∧
    ∀ handle, ¬AgreeAndHonour { mysqlConnectTiemout := 10 } handle
      (mysqlConnectDatabase sampleClient false {} localService
        { mysqlEnableRetry := false, mysqlConnectTiemout := 10 } |>.map id Db.calls)
      (mysqlConnectDatabase sampleClient false {} localService
        { mysqlEnableRetry := true, mysqlConnectTiemout := 10 } |>.map id Db.calls) := by
  refine ⟨by decide,by decide,fun handle h => ?_⟩
  have hread := h.plain.read
  have hset : settingsOn handle (beforeConnect (mysqlConnectDatabase sampleClient false {}
      localService { mysqlEnableRetry := false, mysqlConnectTiemout := 10 }).2.calls) = [] := rfl
  rw [Prod.map_snd,hset] at hread
  cases hread

end Timeouts

end ConnectOptions
end AlephSql
