import AlephSql.Sqlite

/-! The class `mysql_connect` over the MySQL client library. The library is a parameter that
answers each call by the calls made before it; handles are identities. -/
namespace AlephSql
namespace Mysql

open Sqlite (cString)

abbrev HandleId := ℕ

/-- The options that `mysql_options` sets, with their values. -/
inductive HandleOption
  | sslCa (path : String)
  | sslKey (key : String)
  | connectTimeout (seconds : UInt32)
  | readTimeout (seconds : UInt32)
  | writeTimeout (seconds : UInt32)
  deriving DecidableEq, Repr

inductive LoggerLevel
  | error | info | warning
  deriving DecidableEq, Repr

structure Login where
  host : String
  user : String
  passwd : String
  db : Option String
  port : UInt16
  clientFlag : UInt64
  deriving DecidableEq, Repr

/-- One library call with its answer, a pause, or a line of the log. -/
inductive Event
  | init (out : Option HandleId)
  | options (handle : Option HandleId) (option : HandleOption)
  | realConnect (handle : Option HandleId) (login : Login) (success : Bool)
  | error (handle : Option HandleId) (text : String)
  | close (handle : Option HandleId)
  | sleep (milliseconds : ℤ)
  | logger (level : LoggerLevel) (message : String)
  deriving DecidableEq, Repr

abbrev History := List Event

/-- The answers of the library, and the delays drawn between two bounds. -/
structure Client where
  init : History → Option HandleId
  realConnect : History → Option HandleId → Login → Bool
  error : History → Option HandleId → String
  jitter : History → ℤ → ℤ → ℤ

/-- `mysql_auth_data`. -/
structure AuthData where
  authMysqlPassword : String := ""
  authMysqlUsername : String := ""
  authMysqlHostname : String := ""
  authMysqlPort : UInt16 := 3306
  deriving DecidableEq, Repr

/-- `mysql_connect_service_configure`. -/
structure ServiceConfigure where
  isEnableCustomCreat : Bool := false
  isEnableCustomKey : Bool := false
  isEnableTls : Bool := false
  customCreatPath : String := ""
  customKey : String := ""
  deriving DecidableEq, Repr

structure MysqlConnect where
  mysqlHandler : Option HandleId := none
  connectd : Bool := false
  isConfigured : Bool
  mysqlConnectAuthInfo : AuthData
  mysqlConnectOption : ServiceConfigure := {}
  deriving DecidableEq, Repr

structure Conn where
  self : MysqlConnect
  calls : History
  deriving DecidableEq, Repr

namespace Conn

def log (s : Conn) (e : Event) : Conn := { s with calls := e :: s.calls }

/-- `M_mysql_handler = mysql_init(nullptr)`. -/
def init (C : Client) (s : Conn) : Conn :=
  let handle := C.init s.calls
  { self := { s.self with mysqlHandler := handle }, calls := .init handle :: s.calls }

def options (s : Conn) (option : HandleOption) : Conn :=
  s.log (.options s.self.mysqlHandler option)

/-- The arguments that both connect functions hand to `mysql_real_connect`. -/
def login (s : Conn) (mysqlDatabaseName : Option String) (clientFlags : UInt64) : Login :=
  { host := cString s.self.mysqlConnectAuthInfo.authMysqlHostname
    user := cString s.self.mysqlConnectAuthInfo.authMysqlUsername
    passwd := cString s.self.mysqlConnectAuthInfo.authMysqlPassword
    db := mysqlDatabaseName.map cString
    port := s.self.mysqlConnectAuthInfo.authMysqlPort
    clientFlag := clientFlags }

def realConnect (C : Client) (s : Conn) (login : Login) : Bool × Conn :=
  let success := C.realConnect s.calls s.self.mysqlHandler login
  (success,s.log (.realConnect s.self.mysqlHandler login success))

def error (C : Client) (s : Conn) : String × Conn :=
  let text := cString (C.error s.calls s.self.mysqlHandler)
  (text,s.log (.error s.self.mysqlHandler text))

variable {C : Client} {s : Conn}

@[simp] theorem self_log (e : Event) : (s.log e).self = s.self := rfl

@[simp] theorem self_options (o : HandleOption) : (s.options o).self = s.self := rfl

@[simp] theorem self_realConnect (l : Login) : (s.realConnect C l).2.self = s.self := rfl

@[simp] theorem self_error : (s.error C).2.self = s.self := rfl

end Conn

/-- The constructor; what it finds in `M_is_configured` is arbitrary. -/
def construct (isConfigured : Bool) (authMysqlHostname authMysqlPassword authMysqlUsername : String)
    (authMysqlPort : UInt16) : MysqlConnect :=
  { connectd := false
    isConfigured := isConfigured
    mysqlConnectAuthInfo :=
      { authMysqlHostname := authMysqlHostname
        authMysqlPassword := authMysqlPassword
        authMysqlUsername := authMysqlUsername
        authMysqlPort := authMysqlPort } }

/-- `mysql_options_set`. -/
def mysqlOptionsSet (o : MysqlConnect) (enableTls enableCustomCreat enableCustomTlsKey : Bool) :
    MysqlConnect :=
  { o with
    mysqlConnectOption :=
      { o.mysqlConnectOption with
        isEnableTls := enableTls
        isEnableCustomCreat := enableCustomCreat
        isEnableCustomKey := enableCustomTlsKey } }

/-- `is_connectd`. -/
def isConnectd (o : MysqlConnect) : Bool := o.connectd && o.mysqlHandler.isSome

/-- `options_configure`. The key option is given the password, as in the source. -/
def optionsConfigure (C : Client) (s : Conn) : Conn :=
  let warned :=
    if s.self.isConfigured then
      s.log (.logger .warning "Configure faild already configure")
    else s
  let fresh := warned.init C
  if fresh.self.mysqlHandler = none then
    fresh.log (.logger .error "Initiazed error 'mysql_init()' failed")
  else if fresh.self.mysqlConnectOption.isEnableTls then
    let creat :=
      if fresh.self.mysqlConnectOption.isEnableCustomCreat then
        fresh.options (.sslCa (cString fresh.self.mysqlConnectOption.customCreatPath))
      else fresh
    if creat.self.mysqlConnectOption.isEnableCustomKey then
      creat.options (.sslKey (cString creat.self.mysqlConnectAuthInfo.authMysqlPassword))
    else creat
  else fresh

/-- The branch of both connect functions that closes a connected handle. -/
def closeConnected (s : Conn) : Conn :=
  if s.self.mysqlHandler ≠ none ∧ s.self.connectd = true then
    { self := { s.self with mysqlHandler := none, connectd := false }
      calls := .close s.self.mysqlHandler :: s.calls }
  else s

/-- `mysql_connect_to_service`. Nothing in its `try` block throws. -/
def mysqlConnectToService (C : Client) (s : Conn) (mysqlDatabaseName : Option String)
    (clientFlags : UInt64) : Bool × Conn :=
  if isConnectd s.self then (true,s)
  else
    let closed := closeConnected s
    let result := closed.realConnect C (closed.login mysqlDatabaseName clientFlags)
    if result.1 then (true,result.2)
    else
      let message := result.2.error C
      (false,message.2.log (.logger .error message.1))

def delayMs (attempt : ℕ) : ℤ := 100*2^(attempt-1)

def pause (C : Client) (s : Conn) (attempt : ℕ) : Conn :=
  if 0 < attempt then
    s.log (.sleep (C.jitter s.calls (delayMs attempt / 2) (delayMs attempt * 3 / 2)))
  else s

@[simp] theorem self_pause {C : Client} {s : Conn} (attempt : ℕ) :
    (pause C s attempt).self = s.self := by
  by_cases h : 0 < attempt <;> simp [pause,h]

/-- The `for` loop over `attempt`, with the number of rounds left. -/
def retryLoop (C : Client) (login : Login) : (rounds attempt : ℕ) → Conn → Bool × Conn
  | 0, _, s => (false,s)
  | k+1, attempt, s =>
    let result := (pause C s attempt).realConnect C login
    if result.1 then (true,result.2)
    else
      let message := result.2.error C
      retryLoop C login k (attempt+1)
        (message.2.log (.logger .warning ("Retry failed: " ++ message.1)))

/-- `mysql_connect_to_service_retry`. The random device of its `try` block is taken to be
there, so that nothing in the block throws. -/
def mysqlConnectToServiceRetry (C : Client) (s : Conn) (mysqlDatabaseName : Option String)
    (clientFlags : UInt64) (connectTimeout : UInt32) (mysqlMaxRetryCount : Int32) : Bool × Conn :=
  let timed := s.options (.connectTimeout connectTimeout)
  if isConnectd timed.self then (true,timed)
  else
    let closed := closeConnected timed
    let login := closed.login mysqlDatabaseName clientFlags
    let first := closed.realConnect C login
    if first.1 then (true,first.2)
    else retryLoop C login (mysqlMaxRetryCount.toInt+1).toNat 0 first.2

/-- `~mysql_connect`. -/
def destroy (s : Conn) : History :=
  if s.self.mysqlHandler ≠ none then .close s.self.mysqlHandler :: s.calls else s.calls

end Mysql
end AlephSql
