import DrFrakeVpn.AccountWorld

/-! # Registration and password reset by e-mail code -/
namespace CodeHandlers

open FaultyTransactions RecordTables
open AccountWorld

variable (cfg : AccountSetup)

/-- The value has six digits, so that nothing is padded. -/
def generateCode (value : Fin 900000) : String := toString (value.val + 100000)

def invalidCode : AuthReply := .error 400 "invalid or expired code"

def ofPair (email : String) (purpose : Purpose) (c : VerificationCode) : Bool :=
  c.email = email && c.purpose = purpose

def isLive (now : ℤ) (c : VerificationCode) : Bool :=
  !c.used && now < c.expiresAt && c.deletedAt = none

/-- Whether a code was sent in the last 55 seconds that nobody has used. -/
def sentRecently (email : String) (purpose : Purpose) : AccountHandler Bool := do
  let now ← clock .clock
  match ← exec cfg (.code email purpose .recent) (firstRow fun a => a.codes.first? fun c =>
      ofPair email purpose c && now - 55000000000 < c.createdAt && !c.used &&
        c.deletedAt = none) with
  | .ok _ => pure true
  | .error _ => pure false

/-- An update that names neither a model nor a table. -/
def refused (a : Accounts) : Except AccountError Unit × Accounts := (.error .failed, a)

/-- The error is dropped. -/
def invalidateCodes (email : String) (purpose : Purpose) : AccountHandler Unit := do
  let _ ← exec cfg (.code email purpose .invalidate) refused

def codeRow (email : String) (purpose : Purpose) (text : String) (createdAt expiresAt : ℤ)
    (id : ℕ) : VerificationCode :=
  ⟨id, createdAt, email, text, purpose, expiresAt, false, none⟩

/-- The new code is stored with `text` and sent; the error of the insert is dropped. -/
def sendCode (email : String) (purpose : Purpose) (text : String → String) :
    AccountHandler Unit := do
  let code := generateCode (cfg.codeValue (← drawNumber))
  let now ← clock .clock
  let _ ← exec cfg (.code email purpose .create) fun a =>
    match a.codes.insert (codeRow email purpose (text code) a.world.now (now + 10 * minute)) with
    | some t => (.ok (), { a with codes := t })
    | none => (.error .constraint, a)
  .atom (.code email purpose .mail) fun a =>
    ((), { a with mails := a.mails ++ [(email, purpose, code)] })

def usedUp : Table.Write VerificationCode where
  apply c := { c with used := true }
  id_eq _ := rfl
  key_eq _ := rfl

/-- The error of the update is dropped. -/
def markUsed (c : VerificationCode) (email : String) (purpose : Purpose) : AccountHandler Unit := do
  let _ ← exec cfg (.code email purpose .markUsed) (writeRow fun a =>
    { a with codes := a.codes.update (fun d => d.id = c.id && d.deletedAt = none) usedUp })

def deletedCode (now : ℤ) : Table.Write VerificationCode where
  apply c := { c with deletedAt := some now }
  id_eq _ := rfl
  key_eq _ := rfl

/-- The part of the hourly clean-up that is about codes. -/
def cleanUpCodes : AccountHandler Unit := do
  let now ← clock .clock
  let _ ← exec cfg .codeCleanUp (writeRow fun a =>
    { a with codes := a.codes.update (fun c => c.deletedAt = none &&
      (c.expiresAt < now - GoTime.day || c.used)) (deletedCode now) })

structure RegisterRequest where
  email : String
  password : String
  deriving DecidableEq, Repr

/-- A body that cannot be bound is the message of its error. -/
def register (req : Except String RegisterRequest) : AccountHandler AuthReply := do
  match req with
  | .error message => pure (.error 400 message)
  | .ok req =>
    match ← exec cfg (.code req.email .verify .findUser)
        (firstRow fun a => a.byEmail req.email) with
    | .ok _ => pure (.error 409 "email already registered")
    | .error .recordNotFound =>
      if ← sentRecently cfg req.email .verify then
        pure (.error 429 "code already sent, wait 60 seconds before retrying")
      else
        invalidateCodes cfg req.email .verify
        match cfg.bcryptHash (← drawNumber) req.password with
        | none => pure (.error 500 "internal error")
        | some hash =>
          sendCode cfg req.email .verify fun code => code ++ "|" ++ hash
          pure (.message "verification code sent to email")
    | .error .busy => pure databaseBusy
    | .error _ => pure (.error 500 "failed to check email availability")

structure VerifyRequest where
  email : String
  code : String
  deriving DecidableEq, Repr

/-- `strings.SplitN(text, "|", 2)`, where it gives two parts. -/
def splitBar (text : String) : Option (String × String) :=
  match text.toList.dropWhile (· ≠ '|') with
  | [] => none
  | _ :: rest => some (String.ofList (text.toList.takeWhile (· ≠ '|')), String.ofList rest)

def storeUser (email hash : String) (a : Accounts) : Except AccountError Account × Accounts :=
  match a.world.db.users.insert fun id => ⟨id, email⟩ with
  | none => (.error .constraint, a)
  | some t =>
    let id := a.world.db.users.seq
    (.ok ⟨id, email, hash, .user⟩,
      { a with
        world := { a.world with db := { a.world.db with users := t } }
        passwordHash := Function.update a.passwordHash id hash
        role := Function.update a.role id .user })

def storeFreeSubscription (userID : ℕ) (now : ℤ) (a : Accounts) :
    Except AccountError Unit × Accounts :=
  match a.world.db.subscriptions.insert fun id =>
      ⟨id, userID, .free, .active, GoTime.addDate now 1 0 0, false, ""⟩ with
  | none => (.error .constraint, a)
  | some t => (.ok (), { a with world := { a.world with db := { a.world.db with
      subscriptions := t } } })

/-- What follows when the code was right. The error of the second insert is dropped. -/
def createAccount (email hash : String) : AccountHandler AuthReply := do
  match ← exec cfg (.code email .verify .createUser) (storeUser email hash) with
  | .error _ => pure (.error 409 "email already registered")
  | .ok user =>
    let now ← clock .clock
    let _ ← exec cfg (.code email .verify .createSubscription) (storeFreeSubscription user.id now)
    let pair ← generateTokens cfg (fun step => .code email .verify (.token step)) user
    pure (.tokens 201 pair)

def checkCode (req : VerifyRequest) (vc : VerificationCode) : AccountHandler AuthReply :=
  match splitBar vc.code with
  | none => pure invalidCode
  | some (code, hash) =>
    if code ≠ req.code then pure invalidCode
    else do
      markUsed cfg vc req.email .verify
      createAccount cfg req.email hash

def verifyEmail (req : Except String VerifyRequest) : AccountHandler AuthReply := do
  match req with
  | .error message => pure (.error 400 message)
  | .ok req =>
    let now ← clock .clock
    match ← exec cfg (.code req.email .verify .find) (firstRow fun a => a.codes.first? fun c =>
        ofPair req.email .verify c && isLive now c) with
    | .error _ => pure invalidCode
    | .ok vc => checkCode cfg req vc

def codeWillBeSent : AuthReply := .message "if this email is registered, a code will be sent"

def forgotPassword (req : Except String String) : AccountHandler AuthReply := do
  match req with
  | .error message => pure (.error 400 message)
  | .ok email =>
    match ← exec cfg (.code email .reset .findUser) (firstRow fun a => a.byEmail email) with
    | .error e => pure (lookupError codeWillBeSent "failed to process password reset request" e)
    | .ok _ =>
      if ← sentRecently cfg email .reset then pure codeWillBeSent
      else
        invalidateCodes cfg email .reset
        sendCode cfg email .reset fun code => code
        pure codeWillBeSent

structure ResetPasswordRequest where
  email : String
  code : String
  password : String
  deriving DecidableEq, Repr

/-- The answer is the number of rows. -/
def storePassword (email hash : String) (a : Accounts) : Except AccountError ℕ × Accounts :=
  match a.byEmail email with
  | none => (.ok 0, a)
  | some user => (.ok 1, { a with passwordHash := Function.update a.passwordHash user.id hash })

def updatePassword (email password : String) : AccountHandler AuthReply := do
  match cfg.bcryptHash (← drawNumber) password with
  | none => pure (.error 500 "internal error")
  | some hash =>
    match ← exec cfg (.code email .reset .updatePassword) (storePassword email hash) with
    | .error _ | .ok 0 => pure (.error 500 "failed to update password")
    | .ok _ => pure (.message "password updated successfully")

def resetPassword (req : Except String ResetPasswordRequest) : AccountHandler AuthReply := do
  match req with
  | .error message => pure (.error 400 message)
  | .ok req =>
    let now ← clock .clock
    match ← exec cfg (.code req.email .reset .find) (firstRow fun a => a.codes.first? fun c =>
        ofPair req.email .reset c && c.code = req.code && isLive now c) with
    | .error _ => pure invalidCode
    | .ok vc =>
      markUsed cfg vc req.email .reset
      updatePassword cfg req.email req.password

end CodeHandlers
