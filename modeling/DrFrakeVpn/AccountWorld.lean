import DrFrakeVpn.BackendWorld

/-! # What the account handlers act on

Columns of the users table that only these handlers read are kept by the primary key of their
row. -/
namespace AccountWorld

open SharedPrograms FaultyTransactions RecordTables BackendModels BackendWorld

inductive Role where
  | user
  | admin
  deriving DecidableEq, Repr

def Role.name : Role → String
  | .user => "user"
  | .admin => "admin"

inductive TVLoginStatus where
  | pending
  | approved
  | consumed
  | expired
  deriving DecidableEq, Repr

structure TVLogin where
  id : ℕ
  deviceCodeHash : String
  userCodeHash : String
  userID : Option ℕ
  status : TVLoginStatus
  expiresAt : ℤ
  lastPolledAt : Option ℤ
  approvedAt : Option ℤ
  consumedAt : Option ℤ
  deletedAt : Option ℤ
  deriving DecidableEq, Repr

inductive Purpose where
  | verify
  | reset
  deriving DecidableEq, Repr

structure VerificationCode where
  id : ℕ
  createdAt : ℤ
  email : String
  code : String
  purpose : Purpose
  expiresAt : ℤ
  used : Bool
  deletedAt : Option ℤ
  deriving DecidableEq, Repr

/-- Only the columns that name a user. -/
structure AdminAuditLog where
  id : ℕ
  actorUserID : Option ℕ
  deriving DecidableEq, Repr

inductive AdminNotificationSeverity where
  | info
  | warning
  | critical
  deriving DecidableEq, Repr

inductive AdminNotificationStatus where
  | opened
  | resolved
  deriving DecidableEq, Repr

structure AdminNotification where
  id : ℕ
  fingerprint : String
  severity : AdminNotificationSeverity
  status : AdminNotificationStatus
  title : String
  message : String
  serverID : Option ℕ
  metadataJSON : String
  lastSeenAt : ℤ
  acknowledgedAt : Option ℤ
  acknowledgedByID : Option ℕ
  mutedUntil : Option ℤ
  resolvedAt : Option ℤ
  deriving DecidableEq, Repr

instance : Record TVLogin := ⟨String, inferInstance, TVLogin.id, TVLogin.deviceCodeHash⟩
instance : Record VerificationCode := ⟨ℕ, inferInstance, VerificationCode.id, VerificationCode.id⟩
instance : Record AdminAuditLog := ⟨ℕ, inferInstance, AdminAuditLog.id, AdminAuditLog.id⟩
instance : Record AdminNotification :=
  ⟨String, inferInstance, AdminNotification.id, AdminNotification.fingerprint⟩

structure Claims where
  userID : ℕ
  role : Role
  expiresAt : ℤ
  deriving DecidableEq, Repr

/-- What a client can present: a token that was signed with a secret, or some other text. -/
inductive Token where
  | signed (secret : String) (claims : Claims)
  | text (s : String)
  deriving DecidableEq, Repr

/-- `jwt.ParseWithClaims` with the secret: exactly the unexpired tokens that were signed with
it, and their claims. -/
def parseWithClaims (secret : String) (now : ℤ) : Token → Option Claims
  | .signed key claims => if key = secret ∧ now < claims.expiresAt then some claims else none
  | .text _ => none

def minute : ℤ := 60000000000

/-- `jwt.NewNumericDate`, which drops the fraction of a second. -/
def numericDate (t : ℤ) : ℤ := t / 1000000000 * 1000000000

structure TokenPair where
  accessToken : Token
  refreshToken : Token
  deriving DecidableEq, Repr

inductive TokenStep where
  | accessTime
  | refreshTime
  deriving DecidableEq, Repr

inductive TvSeenStep where
  | attemptTime
  | attempt
  | expiryTime
  | expire
  | pollTime
  | polled
  deriving DecidableEq, Repr

inductive TvTokenStep where
  | user
  | consumeTime
  | consume
  | token (step : TokenStep)
  | issue
  deriving DecidableEq, Repr

inductive CodeSite where
  | findUser
  | recent
  | invalidate
  | create
  | mail
  | find
  | markUsed
  | createUser
  | createSubscription
  | updatePassword
  | token (step : TokenStep)
  deriving DecidableEq, Repr

inductive DeleteSite where
  | findUser
  | selectKeys
  | selectCredentials
  | keys
  | credentials
  | profiles
  | subscriptions
  | payments
  | user (user : ℕ)
  deriving DecidableEq, Repr

inductive AccountStmt where
  | clock
  | random
  | attempt
  | backend (l : Stmt)
  | tvExpireStale
  | tvCreate
  | tvCleanUp
  | tvFindPending (hash : String)
  | tvFindDevice (hash : String)
  | tvFindUser
  | tvApprove (login user : ℕ)
  | tvSeen (login : TVLogin) (step : TvSeenStep)
  | tvToken (login user : ℕ) (step : TvTokenStep)
  | refreshUser (user : ℕ)
  | refreshToken (user : ℕ) (step : TokenStep)
  | code (email : String) (purpose : Purpose) (site : CodeSite)
  | codeCleanUp
  | countAdmins (id : String)
  | findForRole (id : String)
  | setRole (user : ℕ) (role : Role) (counted : ℕ)
  | delete (id : String) (site : DeleteSite)
  deriving DecidableEq

/-- `world` holds the tables of the other handlers, the users among them. The last two fields
are records that no handler reads: whose approval of a TV login was stored, and to whom a
token pair was handed out for one. -/
structure Accounts where
  world : World
  passwordHash : ℕ → String
  role : ℕ → Role
  tvLogins : Table TVLogin
  codes : Table VerificationCode
  auditLogs : Table AdminAuditLog
  notifications : Table AdminNotification
  approveAttempts : String → List ℤ
  tokenAttempts : String → List ℤ
  mails : List (String × Purpose × String)
  approvals : List (ℕ × ℕ)
  issued : List (ℕ × ℕ)

inductive AccountError where
  | recordNotFound
  | constraint
  | busy
  | failed
  deriving DecidableEq, Repr

/-- Hashes and random texts come from elsewhere. `whereUser` is the row that a condition given
as text picks, and `textEquals` tells whether a text that is no number equals a user id. -/
structure AccountSetup where
  jwtSecret : String
  sha256 : String → String
  bcryptHash : ℕ → String → Option String
  bcryptMatches : (hash password : String) → Bool
  deviceCode : ℕ → String
  userCode : ℕ → String
  codeValue : ℕ → Fin 900000
  whereUser : String → Accounts → Option ℕ
  textEquals : String → ℕ → Bool
  backend : Setup
  faults : AccountStmt → Bool
  failure : AccountStmt → AccountError

def AccountSetup.Reliable (cfg : AccountSetup) : Prop := ∀ l, cfg.faults l = false

/-- Every statement works; texts are their own hashes, and random texts differ in length. -/
def AccountSetup.standard : AccountSetup where
  jwtSecret := "secret"
  sha256 text := text
  bcryptHash _ password := some password
  bcryptMatches hash password := hash = password
  deviceCode n := String.ofList (List.replicate (n + 1) 'd')
  userCode n := String.ofList (List.replicate (n + 1) 'U')
  codeValue n := Fin.ofNat 900000 n
  whereUser _ _ := none
  textEquals _ _ := false
  backend := .standard ""
  faults _ := false
  failure _ := .failed

def Accounts.start (users : Table User) (now : ℤ) : Accounts where
  world := .start { Db.empty with users := users } now (.answering (fun _ => none) [])
  passwordHash _ := ""
  role _ := .user
  tvLogins := .empty
  codes := .empty
  auditLogs := .empty
  notifications := .empty
  approveAttempts _ := []
  tokenAttempts _ := []
  mails := []
  approvals := []
  issued := []

abbrev AccountHandler := Prog Accounts AccountStmt

variable (cfg : AccountSetup)

def exec {α : Type} (l : AccountStmt) (f : Accounts → Except AccountError α × Accounts) :
    AccountHandler (Except AccountError α) :=
  single cfg.faults (cfg.failure l) l f

theorem run_exec :
    (exec cfg l f).run a = if cfg.faults l then (.error (cfg.failure l), a) else f a := rfl

theorem exec_run {cfg} (hcfg : cfg.Reliable) {α : Type} (l : AccountStmt)
    (f : Accounts → Except AccountError α × Accounts) (a : Accounts) :
    (exec cfg l f).run a = f a := by
  simp [run_exec, hcfg l, Bool.false_eq_true]

/-- `time.Now()`. -/
def clock (l : AccountStmt) : AccountHandler ℤ := .atom l fun a => (a.world.now, a)

def drawNumber : AccountHandler ℕ := .atom .random fun a =>
  (a.world.random, { a with world := { a.world with random := a.world.random + 1 } })

def onBackend {α : Type} : Handler α → AccountHandler α
  | .done a => .done a
  | .act l f next => .act (.backend l)
      (fun a => ((f a.world).1, { a with world := (f a.world).2 })) fun b => onBackend (next b)

def firstRow {α : Type} (find : Accounts → Option α) (a : Accounts) :
    Except AccountError α × Accounts :=
  match find a with
  | some x => (.ok x, a)
  | none => (.error .recordNotFound, a)

def writeRow (write : Accounts → Accounts) (a : Accounts) : Except AccountError Unit × Accounts :=
  (.ok (), write a)

structure Account where
  id : ℕ
  email : String
  passwordHash : String
  role : Role
  deriving DecidableEq, Repr

def Accounts.account (a : Accounts) (u : User) : Account :=
  ⟨u.id, u.email, a.passwordHash u.id, a.role u.id⟩

def Accounts.byID (a : Accounts) (id : ℕ) : Option Account :=
  (a.world.db.users.byId id).map a.account

def Accounts.byEmail (a : Accounts) (email : String) : Option Account :=
  (a.world.db.users.first? fun u => u.email = email).map a.account

inductive AuthReply where
  | error (status : ℕ) (message : String)
  | slowDown
  | pending
  | approved
  | started (deviceCode userCode verificationURI verificationURIComplete : String)
  | message (text : String)
  | tokens (status : ℕ) (pair : TokenPair)
  deriving DecidableEq, Repr

def databaseBusy : AuthReply := .error 503 "database temporarily busy, please retry"

def lookupError (missing : AuthReply) (message : String) : AccountError → AuthReply
  | .recordNotFound => missing
  | .busy => databaseBusy
  | _ => .error 500 message

/-- Both tokens carry the same claims but for their time. -/
def generateTokens (site : TokenStep → AccountStmt) (user : Account) :
    AccountHandler TokenPair := do
  let accessTime ← clock (site .accessTime)
  let refreshTime ← clock (site .refreshTime)
  pure ⟨.signed cfg.jwtSecret ⟨user.id, user.role, numericDate (accessTime + GoTime.hour)⟩,
    .signed cfg.jwtSecret ⟨user.id, user.role, numericDate (refreshTime + 30 * 24 * GoTime.hour)⟩⟩

end AccountWorld
