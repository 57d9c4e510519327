import DrFrakeVpn.BackendModels
import DrFrakeVpn.FaultyTransactions

/-! # What the handlers act on

Each database statement, provider call and remote command of the source has a label, under which
it may be made to fail. Two records that no handler reads hold the activations and the renewal
charges. -/
namespace BackendWorld

open SharedPrograms FaultyTransactions GoValues BackendModels

inductive DbError where
  | recordNotFound
  | constraint
  | failed
  deriving DecidableEq, Repr

inductive CreateSite where
  | trialCount
  | promoFind
  | promoExpiry
  | promoUses
  | promoUserUses
  | confirmTime
  | loadUser
  | post
  | store
  | freeConfirm
  | freeStore
  deriving DecidableEq, Repr

inductive AccountSite where
  | findRenewal
  | setAutoRenew
  | findCard
  | deleteCard
  deriving DecidableEq, Repr

inductive AdminSite where
  | findUser
  | revoke
  | findSubscription
  | createSubscription
  | updateSubscription
  | disableProfiles
  deriving DecidableEq, Repr

inductive ConfigSite where
  | servers
  | openKeys
  | revokeKeys
  | seedProfiles
  | loadProfiles
  | openCredentials
  | revokeCredentials
  | existingKeys
  | storeKey (server : ℕ)
  deriving DecidableEq, Repr

/-- The steps of `ensureVLESSTemplate`: the server is asked, then the row is stored. -/
inductive TemplateSite where
  | fetch
  | store
  deriving DecidableEq, Repr

inductive CredentialSite where
  | find
  | save
  | create
  deriving DecidableEq, Repr

inductive HappSite where
  | storeToken
  | servers
  | seedProfiles
  | loadProfiles
  | credential (server : ℕ)
  | touchToken
  | prepare
  deriving DecidableEq, Repr

inductive GeneratorSite where
  | servers
  | subscriptions
  | credential (user server : ℕ)
  deriving DecidableEq, Repr

/-- A change of an AWG peer: on the running interface, then in its config file. -/
inductive PeerStep where
  | wg
  | file
  deriving DecidableEq, Repr

/-- A change of an Xray client. The write knows how often the file had been written when
its call read it. -/
inductive XrayStep where
  | read
  | write (version : ℕ)
  | ready
  deriving DecidableEq, Repr

inductive Stmt where
  | clock
  | spawn
  | returned
  | fetchPayment (yk : String)
  | webhookCancel (yk : String)
  | webhookConfirm (yk : String)
  | webhookFind (yk : String)
  | webhookMark (yk : String)
  | webhookSubscription (yk : String)
  | activateFind (payment : ℕ)
  | activateCreate (payment : ℕ)
  | activateUpdate (payment : ℕ)
  | promoCount (payment : ℕ)
  | promoUpdate (payment : ℕ)
  | reconcileSelect (user : ℕ)
  | reconcileConfirm (payment : ℕ)
  | reconcileFind (payment : ℕ)
  | reconcileMark (payment : ℕ)
  | reconcileCancel (payment : ℕ)
  | approveFind (payment : ℕ)
  | approveConfirm (payment : ℕ)
  | approveSave (payment : ℕ)
  | upgradeUser (user : ℕ)
  | upgradeSubscription (user : ℕ)
  | upgradeSave (user : ℕ)
  | createPayment (user : ℕ) (plan : PlanType) (promo : Option ℕ) (site : CreateSite)
  | renewalSelect
  | renewalUser (user : ℕ)
  | renewalCharge (user : ℕ)
  | renewalExtend (user : ℕ)
  | renewalStore (user : ℕ)
  | renewalPending
  | renewalExpire
  | renewalExpired
  | revokeTokens (user : ℕ)
  | selectKeys (user : ℕ)
  | removePeer (key : ℕ) (step : PeerStep)
  | revokeKeys (user : ℕ)
  | selectCredentials (user : ℕ)
  | removeClient (credential : ℕ) (step : XrayStep)
  | revokeCredentials (user : ℕ)
  | routingSchema
  | subscriptionSchema
  | defaultFind (user : ℕ)
  | defaultCreate (user : ℕ)
  | profileFind (user : ℕ)
  | profileToggle (user : ℕ)
  | profileUpdate (user : ℕ)
  | profileReload (user : ℕ)
  | profileDelete (user : ℕ)
  | account (user : ℕ) (site : AccountSite)
  | admin (user : ℕ) (site : AdminSite)
  | random
  | config (user : ℕ) (site : ConfigSite)
  | revokeKey (key : ℕ)
  | template (server : ℕ) (site : TemplateSite)
  | credential (user server : ℕ) (site : CredentialSite)
  | happ (user : ℕ) (site : HappSite)
  | happToken (hash : String)
  | generator (site : GeneratorSite)
  | addPeer (server : ℕ) (publicKey : String) (step : PeerStep)
  | dropPeer (server : ℕ) (publicKey : String) (step : PeerStep)
  | addClient (server : ℕ) (clientID : String) (step : XrayStep)
  | dropClient (server : ℕ) (clientID : String) (step : XrayStep)
  deriving DecidableEq

structure PaymentDetails where
  status : String
  paymentMethodID : String
  receiptRegistration : String
  deriving DecidableEq, Repr

def savedMethod (fields : List (String × Json)) : String :=
  match asMap? (lookup fields "payment_method") with
  | some pm => if asBool (lookup pm "saved") then asString (lookup pm "id") else ""
  | none => ""

def detailsOf : HttpResult → Option PaymentDetails
  | .transportError => none
  | .response status body =>
    if status < 200 ∨ 300 ≤ status then none
    else match bindMap body with
      | none => none
      | some data => some {
          status := asString (lookup data "status")
          paymentMethodID := savedMethod data
          receiptRegistration := asString (lookup data "receipt_registration") }

/-- The provider knows the state of each payment made with it. A call may fail, but an
answer that can be read tells the state; `answers` are those to the next new payments. -/
structure Provider where
  status : String → Option String
  reply : String → HttpResult
  answers : List HttpResult
  truthful : ∀ id d, detailsOf (reply id) = some d → status id = some d.status

def newPaymentOf : HttpResult → Option (String × String)
  | .response status (some (.obj data)) =>
    if status = 200 ∨ status = 201 then
      match lookup data "id", lookup data "status" with
      | some (.str id), some (.str st) => some (id, st)
      | _, _ => none
    else none
  | _ => none

theorem newPaymentOf_some {a id st} (h : newPaymentOf a = some (id, st)) :
    ∃ code data, a = .response code (some (.obj data)) ∧ (code = 200 ∨ code = 201) ∧
      asString (lookup data "id") = id ∧ asString (lookup data "status") = st := by
  unfold newPaymentOf at h
  split at h
  · next code data =>
    split at h
    · next hcode =>
      split at h
      · next _ _ hid hst =>
        cases h
        exact ⟨code, data, rfl, hcode, by rw [hid]; rfl, by rw [hst]; rfl⟩
      · cases h
    · cases h
  · cases h

def Provider.register (p : Provider) (a : HttpResult) (rest : List HttpResult) : Provider where
  status id :=
    match newPaymentOf a with
    | some (new, st) => if id = new ∧ p.status id = none then some st else p.status id
    | none => p.status id
  reply := p.reply
  answers := rest
  truthful := by
    intro id d hd
    have h := p.truthful id d hd
    split
    · next hn =>
      rw [if_neg]
      · exact h
      · rintro ⟨_, hnone⟩
        rw [h] at hnone
        cases hnone
    · exact h

def Final (status : String) : Prop := status = "succeeded" ∨ status = "canceled"

structure Activation where
  paymentID : ℕ
  userID : ℕ
  plan : PlanType
  deriving DecidableEq, Repr

structure Charge where
  userID : ℕ
  expiresAt : ℤ
  yooKassaID : String
  deriving DecidableEq, Repr

/-- The VPN servers by the id of their row: the peers of the running interfaces, the AWG
config files, the Xray config files (`none` is text that is no JSON) and how often each of
these was written. -/
structure Remote where
  awgPeers : List (ℕ × String)
  awgFiles : ℕ → List Char
  xrayFiles : ℕ → Option Json
  xrayWrites : ℕ → ℕ

def Remote.empty : Remote := ⟨[], fun _ => [], fun _ => none, fun _ => 0⟩

/-- A goroutine that a handler started and did not wait for. -/
inductive Job where
  | removePeer (key : VPNKey) (server : Option VPNServer)
  | removeClient (cred : VLESSCredential) (server : Option VPNServer)
      (template : Option VLESSServerTemplate)
  | dropPeer (server : VPNServer) (publicKey : String)
  | happCredentials (userID : ℕ) (sub : Subscription)
  deriving DecidableEq, Repr

structure World where
  db : Db
  now : ℤ
  provider : Provider
  remote : Remote
  jobs : List Job
  random : ℕ
  subscriptionSchemaReady : Bool
  activations : List Activation
  charges : List Charge

def Provider.answering (status : String → Option String) (answers : List HttpResult) :
    Provider where
  status := status
  reply id :=
    match status id with
    | some st => .response 200 (some (.obj [("status", .str st)]))
    | none => .transportError
  answers := answers
  truthful := by
    intro id d hd
    cases hs : status id with
    | none => simp [hs, detailsOf] at hd
    | some st =>
      simp only [hs, detailsOf, bindMap] at hd
      cases hd
      rfl

def World.start (db : Db) (now : ℤ) (provider : Provider) : World :=
  ⟨db, now, provider, .empty, [], 0, false, [], []⟩

instance : Nonempty World := ⟨.start .empty 0 (.answering (fun _ => none) [])⟩

/-- Time passes, new answers are prepared, and a payment that is not in a final state
may move to another one. Database, servers and records stay. -/
structure Passes (w w' : World) : Prop where
  db : w'.db = w.db
  remote : w'.remote = w.remote
  activations : w'.activations = w.activations
  charges : w'.charges = w.charges
  now : w.now ≤ w'.now
  status : ∀ id st, w.provider.status id = some st →
    w'.provider.status id = some st ∨ (¬ Final st ∧ ∃ st', w'.provider.status id = some st')

/-- `sprint` is the `%v` text of a JSON value that is neither a string nor null. -/
structure Setup where
  shopID : String
  key : String
  recurringEnv : String
  sprint : Json → String
  faults : Stmt → Bool

def Setup.Reliable (cfg : Setup) : Prop := ∀ l, cfg.faults l = false

def Setup.standard (recurringEnv : String) : Setup :=
  ⟨"shop", "key", recurringEnv, fun _ => "", fun _ => false⟩

theorem Setup.standard_reliable (env : String) : (Setup.standard env).Reliable := fun _ => rfl

def Setup.recurringPaymentsEnabled (cfg : Setup) : Bool :=
  let value := trimSpace cfg.recurringEnv
  value = "1" || equalFold value "true" || equalFold value "yes"

abbrev DbTx := Tx World DbError
abbrev Handler := Prog World Stmt

variable (cfg : Setup)

def stmt {α : Type} (l : Stmt) (f : World → Except DbError α × World) : DbTx α :=
  statement cfg.faults .failed l f

def exec1 {α : Type} (l : Stmt) (f : World → Except DbError α × World) :
    Handler (Except DbError α) :=
  single cfg.faults .failed l f

variable {cfg} in
theorem does_exec1 {α : Type} {l} {f : World → Except DbError α × World} {R} (hidle : ∀ w, R l w w)
    (hf : ∀ w, R l w (f w).2) : (exec1 cfg l f).Does R := by
  refine Prog.does_atom fun w => ?_
  split
  · exact hidle w
  · exact hf w

def rollback (w w' : World) : World := { w' with db := w.db }

/-- `db.Transaction(func(tx) error {..})`. -/
def dbTransaction {α : Type} (l : Stmt) (x : DbTx α) : Handler (Except DbError α) :=
  transaction cfg.faults .failed rollback l x

section reliable

variable {cfg} {α : Type} {l : Stmt} (h : cfg.Reliable)
include h

theorem exec1_reliable {f : World → Except DbError α × World} : exec1 cfg l f = .atom l f := by
  simp [exec1, single, h l, Bool.false_eq_true]

theorem dbTransaction_reliable {x : DbTx α} :
    dbTransaction cfg l x = .atom l (transact rollback x) := by
  simp [dbTransaction, transaction, h l, Bool.false_eq_true]

end reliable

/-- `time.Now()` outside a transaction. -/
def readClock (l : Stmt) : Handler ℤ := .atom l fun w => (w.now, w)

/-- `go f(..)`. -/
def spawn (job : Job) : Handler Unit :=
  .atom .spawn fun w => ((), { w with jobs := w.jobs ++ [job] })

/-- The next number of the source that keys, identifiers and tokens are drawn from. -/
def draw : Handler ℕ := .atom .random fun w => (w.random, { w with random := w.random + 1 })

def postPayment (l : Stmt) (log : HttpResult → World → World) : Handler HttpResult :=
  .atom l fun w =>
    match w.provider.answers with
    | [] => (.transportError, log .transportError w)
    | a :: rest => (a, log a { w with provider := w.provider.register a rest })

/-- `First` of a query: the error for an empty result is one the code can tell apart. -/
def firstOf {α : Type} (find : Db → Option α) (w : World) : Except DbError α × World :=
  match find w.db with
  | some a => (.ok a, w)
  | none => (.error .recordNotFound, w)

def readOf {α : Type} (read : Db → α) (w : World) : Except DbError α × World := (.ok (read w.db), w)

/-- An update that no constraint can refuse. -/
def writeOf (write : Db → Db) (w : World) : Except DbError Unit × World :=
  (.ok (), { w with db := write w.db })

/-- An insert or a write-back that a unique index may refuse. -/
def tryWriteOf (write : Db → Option Db) (w : World) : Except DbError Unit × World :=
  match write w.db with
  | some db => (.ok (), { w with db := db })
  | none => (.error .constraint, w)

def createPaymentOf (mk : ℕ → Payment) (w : World) : Except DbError Payment × World :=
  match w.db.payments.insert mk with
  | some t => (.ok (mk w.db.payments.seq), { w with db := { w.db with payments := t } })
  | none => (.error .constraint, w)

section rules

variable {cfg} {α : Type} {l : Stmt} {P : World → Prop} {f : World → Except DbError α × World}

theorem triple_exec1 (herror : cfg.faults l → ∀ w, P w → Q (.error .failed) w)
    (h : ∀ w, P w → Q (f w).1 (f w).2) : (exec1 cfg l f).Triple P Q := by
  intro w hw
  rw [exec1, single_run]
  split
  · next hfault => exact herror hfault w hw
  · exact h w hw

variable (read : Db → α)

theorem triple_read : (exec1 cfg l (readOf read)).Triple P fun r w =>
    P w ∧ (∀ a, r = .ok a → a = read w.db) ∧ (∀ e, r = .error e → cfg.faults l) := by
  refine triple_exec1 (fun hfault w hw => ⟨hw, nofun, fun _ _ => hfault⟩) fun w hw => ?_
  exact ⟨hw, fun a ha => by cases ha; rfl, nofun⟩

theorem triple_first : (exec1 cfg l (firstOf find)).Triple P fun r w =>
    P w ∧ (r = .error .failed ∧ cfg.faults l ∨
      r = (find w.db).elim (.error .recordNotFound) .ok) := by
  refine triple_exec1 (fun hfault w hw => ⟨hw, .inl ⟨rfl, hfault⟩⟩) fun w hw => ?_
  cases hfind : find w.db with
  | none => simp [firstOf, hfind, hw]
  | some a => simp [firstOf, hfind, hw]

theorem triple_clock : (readClock l).Triple P fun now w => P w ∧ now = w.now :=
  Prog.Triple.atom fun _ hw => ⟨hw, rfl⟩

theorem keeps_exec1 (h : ∀ w, P w → P (f w).2) : (exec1 cfg l f).Keeps P fun _ => True :=
  triple_exec1 (fun _ _ hw => ⟨hw, trivial⟩) fun w hw => ⟨h w hw, trivial⟩

theorem keeps_read : (exec1 cfg l (readOf read)).Keeps P fun _ => True :=
  keeps_exec1 fun _ hw => hw

theorem keeps_clock : (readClock l).Keeps P fun _ => True := .of_run fun _ hw => hw

/-- A write that a unique index may refuse. -/
theorem tryWriteOf_keeps (hw : P w)
    (h : ∀ db, write w.db = some db → P { w with db := db }) : P (tryWriteOf write w).2 := by
  unfold tryWriteOf
  cases hwrite : write w.db with
  | none => exact hw
  | some db => exact h db hwrite

end rules

end BackendWorld
