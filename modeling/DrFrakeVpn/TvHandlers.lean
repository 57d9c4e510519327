import DrFrakeVpn.AccountWorld

/-! # Logins of TVs

A TV starts a login and shows its code, a user approves the code from elsewhere, and the TV
polls until it gets the tokens of that user. -/
namespace TvHandlers

open FaultyTransactions RecordTables GoValues
open AccountWorld

variable (cfg : AccountSetup)

def normalizeTVUserCode (code : String) : String :=
  toUpper (String.ofList ((trimSpace code).toList.filter (· ≠ '-')))

def hashTVCode (code : String) : String := cfg.sha256 (cfg.jwtSecret ++ ":" ++ code)

def withStatus (status : TVLoginStatus) : Table.Write TVLogin where
  apply l := { l with status := status }
  id_eq _ := rfl
  key_eq _ := rfl

def isStale (now : ℤ) (l : TVLogin) : Bool :=
  (l.status = .pending || l.status = .approved) && l.expiresAt ≤ now && l.deletedAt = none

/-- The error of the update is dropped. -/
def expireStaleTVLogins : AccountHandler Unit := do
  let now ← clock .clock
  let _ ← exec cfg .tvExpireStale (writeRow fun a =>
    { a with tvLogins := a.tvLogins.update (isStale now) (withStatus .expired) })

def softDeleted (now : ℤ) : Table.Write TVLogin where
  apply l := { l with deletedAt := some now }
  id_eq _ := rfl
  key_eq _ := rfl

def isLeftOver (now : ℤ) (l : TVLogin) : Bool :=
  l.deletedAt = none &&
    (l.expiresAt < now - GoTime.day || l.status = .consumed || l.status = .expired)

/-- The part of the hourly clean-up that is about logins. -/
def cleanUp : AccountHandler Unit := do
  let now ← clock .clock
  let _ ← exec cfg .tvCleanUp (writeRow fun a =>
    { a with tvLogins := a.tvLogins.update (isLeftOver now) (softDeleted now) })

def isRow (id : ℕ) (l : TVLogin) : Bool := l.id = id && l.deletedAt = none

def updateLogin (id : ℕ) (f : Table.Write TVLogin) (a : Accounts) : Accounts :=
  { a with tvLogins := a.tvLogins.update (isRow id) f }

def approvedBy (user : ℕ) (now : ℤ) : Table.Write TVLogin where
  apply l := { l with userID := some user, status := .approved, approvedAt := some now }
  id_eq _ := rfl
  key_eq _ := rfl

/-- The update does not ask for the status. An approval that was stored is recorded. -/
def storeApproval (login user : ℕ) (now : ℤ) (a : Accounts) : Accounts :=
  match a.tvLogins.first? (isRow login) with
  | none => a
  | some _ => { updateLogin login (approvedBy user now) a with
      approvals := a.approvals ++ [(login, user)] }

def polledAt (now : ℤ) : Table.Write TVLogin where
  apply l := { l with lastPolledAt := some now }
  id_eq _ := rfl
  key_eq _ := rfl

def consumedAt (now : ℤ) : Table.Write TVLogin where
  apply l := { l with status := .consumed, consumedAt := some now }
  id_eq _ := rfl
  key_eq _ := rfl

/-- The update asks for the status and tells whether it found the row. -/
def consume (login : ℕ) (now : ℤ) (a : Accounts) : Except AccountError Bool × Accounts :=
  let isApproved := fun l => isRow login l && l.status = .approved
  match a.tvLogins.first? isApproved with
  | none => (.ok false, a)
  | some _ => (.ok true, { a with tvLogins := a.tvLogins.update isApproved (consumedAt now) })

inductive Bucket where
  | approve
  | token
  deriving DecidableEq

def attemptsOf (a : Accounts) : Bucket → String → List ℤ
  | .approve => a.approveAttempts
  | .token => a.tokenAttempts

def setAttempts (a : Accounts) (bucket : Bucket) (key : String) (times : List ℤ) : Accounts :=
  match bucket with
  | .approve => { a with approveAttempts := Function.update a.approveAttempts key times }
  | .token => { a with tokenAttempts := Function.update a.tokenAttempts key times }

/-- The time is read before the lock is taken. -/
def allowTVAttempt (timeLabel lockLabel : AccountStmt) (bucket : Bucket) (key : String)
    (limit : ℕ) (window : ℤ) : AccountHandler Bool := do
  let now ← clock timeLabel
  .atom lockLabel fun a =>
    let kept := (attemptsOf a bucket key).filter fun t => now - window < t
    if limit ≤ kept.length then (false, setAttempts a bucket key kept)
    else (true, setAttempts a bucket key (kept ++ [now]))

def tooManyAttempts : AuthReply := .error 429 "too_many_attempts"

def startedRow (deviceCode userCode : String) (now : ℤ) (id : ℕ) : TVLogin :=
  ⟨id, hashTVCode cfg deviceCode, hashTVCode cfg userCode, none, .pending, now + 10 * minute, none,
    none, none, none⟩

def tvStart (baseURL : String) : AccountHandler AuthReply := do
  expireStaleTVLogins cfg
  let deviceCode := cfg.deviceCode (← drawNumber)
  if deviceCode = "" then pure (.error 500 "failed to generate device code")
  else
    let userCode := cfg.userCode (← drawNumber)
    let now ← clock .clock
    match ← exec cfg .tvCreate (fun a =>
        match a.tvLogins.insert (startedRow cfg deviceCode userCode now) with
        | some t => (.ok (), { a with tvLogins := t })
        | none => (.error .constraint, a)) with
    | .error _ => pure (.error 500 "failed to create tv login")
    | .ok _ =>
      let uri := baseURL ++ "/api/v1/tv"
      pure (.started deviceCode (String.ofList (userCode.toList.take 4) ++ "-" ++
        String.ofList (userCode.toList.drop 4)) uri (uri ++ "?code=" ++ userCode))

/-- The pending login with this code that has not run out. -/
def findPending (userCode : String) : AccountHandler (Except AccountError TVLogin) := do
  let now ← clock .clock
  exec cfg (.tvFindPending (hashTVCode cfg userCode)) (firstRow fun a => a.tvLogins.first? fun l =>
    l.userCodeHash = hashTVCode cfg userCode && l.status = .pending && now < l.expiresAt &&
      l.deletedAt = none)

def approve (login : TVLogin) (user : Account) : AccountHandler AuthReply := do
  let now ← clock .clock
  match ← exec cfg (.tvApprove login.id user.id)
      (writeRow (storeApproval login.id user.id now)) with
  | .error _ => pure (.error 500 "failed to approve tv login")
  | .ok _ => pure .approved

structure TvApproveRequest where
  userCode : String
  email : String
  password : String
  deriving DecidableEq, Repr

/-- A body that cannot be bound is the message of its error. -/
def tvApprove (clientIP : String) (req : Except String TvApproveRequest) :
    AccountHandler AuthReply := do
  expireStaleTVLogins cfg
  match req with
  | .error message => pure (.error 400 message)
  | .ok req =>
    let userCode := normalizeTVUserCode req.userCode
    if !(← allowTVAttempt .clock .attempt .approve ("approve-ip:" ++ clientIP) 60
        (10 * minute)) then
      pure tooManyAttempts
    else if !(← allowTVAttempt .clock .attempt .approve
        ("approve-code:" ++ clientIP ++ ":" ++ userCode) 6 (10 * minute)) then
      pure tooManyAttempts
    else
      match ← findPending cfg userCode with
      | .error _ => pure (.error 400 "invalid or expired code")
      | .ok login =>
        match ← exec cfg .tvFindUser (firstRow fun a => a.byEmail req.email) with
        | .error e => pure (lookupError (.error 401 "invalid email or password")
            "failed to load user" e)
        | .ok user =>
          if !cfg.bcryptMatches user.passwordHash req.password then
            pure (.error 401 "invalid email or password")
          else approve cfg login user

/-- `userID` is what the middleware took from the token. -/
def tvApproveAuthenticated (userID : ℕ) (req : Except String String) :
    AccountHandler AuthReply := do
  expireStaleTVLogins cfg
  if userID = 0 then pure (.error 401 "unauthorized")
  else
    match req with
    | .error message => pure (.error 400 message)
    | .ok code =>
      let userCode := normalizeTVUserCode code
      if !(← allowTVAttempt .clock .attempt .approve ("approve-user:" ++ toString userID) 60
          (10 * minute)) then
        pure tooManyAttempts
      else if !(← allowTVAttempt .clock .attempt .approve
          ("approve-user-code:" ++ toString userID ++ ":" ++ userCode) 8 (10 * minute)) then
        pure tooManyAttempts
      else
        match ← findPending cfg userCode with
        | .error _ => pure (.error 400 "invalid or expired code")
        | .ok login =>
          match ← exec cfg .tvFindUser (firstRow fun a => a.byID userID) with
          | .error _ => pure (.error 401 "user not found")
          | .ok user => approve cfg login user

/-- The login is taken from the row that the caller read; only the consumption asks the row
for its status again. -/
def redeem (login : TVLogin) (userID : ℕ) : AccountHandler AuthReply := do
  match ← exec cfg (.tvToken login.id userID .user) (firstRow fun a => a.byID userID) with
  | .error _ => pure (.error 401 "user not found")
  | .ok user =>
    let now ← clock (.tvToken login.id userID .consumeTime)
    match ← exec cfg (.tvToken login.id userID .consume) (consume login.id now) with
    | .error _ => pure (.error 500 "failed to consume tv login")
    | .ok false => pure (.error 400 "already_used")
    | .ok true =>
      let pair ← generateTokens cfg (fun step => .tvToken login.id userID (.token step)) user
      .atom (.tvToken login.id userID .issue) fun a =>
        (.tokens 200 pair, { a with issued := a.issued ++ [(login.id, userID)] })

def pollPending (login : TVLogin) : AccountHandler AuthReply := do
  let now ← clock (.tvSeen login .pollTime)
  if login.lastPolledAt.any fun t => GoTime.sub now t < 3000000000 then pure .slowDown
  else
    let _ ← exec cfg (.tvSeen login .polled) (writeRow (updateLogin login.id (polledAt now)))
    pure .pending

/-- Whether the login has run out; an expired one is not asked for its time. -/
def isLate (login : TVLogin) : AccountHandler Bool :=
  if login.status = .expired then pure true
  else do
    let now ← clock (.tvSeen login .expiryTime)
    pure (login.expiresAt < now)

def answerTimely (login : TVLogin) : AccountHandler AuthReply :=
  match login.status, login.userID with
  | .consumed, _ => pure (.error 400 "already_used")
  | .pending, _ => pollPending cfg login
  | _, none => pure (.error 500 "approved login is missing user")
  | _, some userID => redeem cfg login userID

def answerPoll (login : TVLogin) : AccountHandler AuthReply := do
  if ← isLate login then
    let _ ← exec cfg (.tvSeen login .expire)
      (writeRow (updateLogin login.id (withStatus .expired)))
    pure (.error 400 "expired_token")
  else answerTimely cfg login

def tvToken (clientIP : String) (req : Except String String) : AccountHandler AuthReply := do
  expireStaleTVLogins cfg
  match req with
  | .error message => pure (.error 400 message)
  | .ok deviceCode =>
    let deviceHash := hashTVCode cfg deviceCode
    if !(← allowTVAttempt .clock .attempt .token ("token-ip:" ++ clientIP) 180 (10 * minute)) then
      pure .slowDown
    else
      match ← exec cfg (.tvFindDevice deviceHash) (firstRow fun a => a.tvLogins.first? fun l =>
          l.deviceCodeHash = deviceHash && l.deletedAt = none) with
      | .error _ => pure (.error 400 "invalid device code")
      | .ok login =>
        if !(← allowTVAttempt (.tvSeen login .attemptTime) (.tvSeen login .attempt) .token
            ("token-device:" ++ deviceHash) 120 (10 * minute)) then
          pure .slowDown
        else answerPoll cfg login

end TvHandlers
