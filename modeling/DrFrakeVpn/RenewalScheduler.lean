import DrFrakeVpn.PaymentHandlers
import DrFrakeVpn.VpnCommands

/-! # The renewal scheduler

Nothing of `processAutoRenewals` is a transaction, and the errors of its statements are dropped or
only logged. -/
namespace RenewalScheduler

open SharedPrograms RecordTables GoValues
open BackendModels BackendWorld SubscriptionActivation VpnCommands

variable (cfg : Setup)

def autoRenewalChargesEnabled : Bool :=
  cfg.recurringPaymentsEnabled && trimSpace cfg.shopID ≠ "" && trimSpace cfg.key ≠ ""

inductive ChargeError where
  | unknownPlan (plan : PlanType)
  | noUser (e : DbError)
  | request
  | refused (status : ℕ)
  deriving DecidableEq, Repr

def renewalRow (sub : Subscription) (priced : sub.plan ≠ .free) (amount : ℚ) (yk : String)
    (status : PaymentStatus) (confirmedAt : Option ℤ) (createdAt : ℤ) (id : ℕ) : Payment where
  id := id
  createdAt := createdAt
  userID := sub.userID
  yooKassaID := yk
  amount := amount
  originalAmount := amount
  discountAmount := 0
  currency := "RUB"
  status := status
  plan := sub.plan
  confirmURL := ""
  confirmedAt := confirmedAt
  promoCodeID := none
  plan_priced := priced

def renewedExpiry (now expiresAt : ℤ) (durationDays : ℤ) : ℤ :=
  let newExpiry := GoTime.addDate expiresAt 0 0 durationDays
  if newExpiry < now then GoTime.addDate now 0 0 durationDays else newExpiry

theorem lt_renewedExpiry (now e : ℤ) {days} (hd : 0 < days) : e < renewedExpiry now e days := by
  have hpos : 0 < days * GoTime.day := mul_pos hd (by decide)
  unfold renewedExpiry
  simp only [GoTime.addDate_days]
  split <;> omega

def extendedTo (expiry : ℤ) : Table.Write Subscription where
  apply sub := { sub with status := .active, expiresAt := expiry }
  id_eq _ := rfl
  key_eq _ := rfl

def logCharge (sub : Subscription) (a : HttpResult) (w : World) : World :=
  { w with
    charges := w.charges ++ [⟨sub.userID, sub.expiresAt, ((newPaymentOf a).map Prod.fst).getD ""⟩] }

/-- What follows an accepted charge. The errors of both writes are dropped. -/
def recordCharge (sub : Subscription) (priced : sub.plan ≠ .free) (priceInfo : PriceInfo)
    (ykResp : List (String × Json)) : Handler Unit := do
  let status := asString (lookup ykResp "status")
  let ykPaymentID := asString (lookup ykResp "id")
  let now ← readClock .clock
  if status = "succeeded" then
    let _ ← exec1 cfg (.renewalExtend sub.userID) (writeOf (updateSubscription sub.id
      (extendedTo (renewedExpiry now sub.expiresAt priceInfo.durationDays))))
    let _ ← exec1 cfg (.renewalStore sub.userID) (fun w => createPaymentOf
      (renewalRow sub priced priceInfo.amount ykPaymentID .succeeded (some now) w.now) w)
  else
    let _ ← exec1 cfg (.renewalStore sub.userID) (fun w => createPaymentOf
      (renewalRow sub priced priceInfo.amount ykPaymentID .pending none w.now) w)

def chargeAutoRenewal (sub : Subscription) : Handler (Except ChargeError Unit) :=
  match hp : planPrices sub.plan with
  | none => pure (.error (.unknownPlan sub.plan))
  | some priceInfo => do
    match ← exec1 cfg (.renewalUser sub.userID) (firstOf fun db => db.users.byId sub.userID) with
    | .error e => pure (.error (.noUser e))
    | .ok _ =>
      match ← postPayment (.renewalCharge sub.userID) (logCharge sub) with
      | .transportError => pure (.error .request)
      | .response status body =>
        if status ≠ 200 ∧ status ≠ 201 then pure (.error (.refused status))
        else do
          recordCharge cfg sub (priced_ne_free hp) priceInfo ((bindMap body).getD [])
          pure (.ok ())

def chargeEach : List Subscription → Handler Unit
  | [] => pure ()
  | sub :: rest => do
    let _ ← chargeAutoRenewal cfg sub
    chargeEach rest

def keyRevoked (now : ℤ) : Table.Write VPNKey :=
  ⟨fun k => { k with revokedAt := some now }, fun _ => rfl, fun _ => rfl⟩

def credentialRevoked (now : ℤ) : Table.Write VLESSCredential :=
  ⟨fun c => { c with revokedAt := some now }, fun _ => rfl, fun _ => rfl⟩

def tokenRevoked (now : ℤ) : Table.Write HappSubscriptionToken :=
  ⟨fun t => { t with revokedAt := some now }, fun _ => rfl, fun _ => rfl⟩

def revokeHappTokens (userID : ℕ) (now : ℤ) : Handler (Except DbError Unit) :=
  exec1 cfg (.revokeTokens userID) (writeOf fun db => { db with
    happTokens := db.happTokens.update (fun t => t.userID = userID && t.revokedAt = none)
      (tokenRevoked now) })

def removePeers : List (VPNKey × Option VPNServer) → Handler (List ℕ)
  | [] => pure []
  | (k, server) :: rest =>
    if k.publicKey ≠ "" then do
      match ← removeAWGPeer cfg (.removePeer k.id) server k.publicKey with
      | .error _ => removePeers rest
      | .ok _ =>
        let ids ← removePeers rest
        pure (k.id :: ids)
    else do
      let ids ← removePeers rest
      pure (k.id :: ids)

def removeClients : List (VLESSCredential × Option VPNServer × Option VLESSServerTemplate) →
    Handler (List ℕ)
  | [] => pure []
  | (cred, server, template) :: rest => do
    match ← removeXrayClient cfg (.removeClient cred.id) server template cred.clientID with
    | .error _ => removeClients rest
    | .ok _ =>
      let ids ← removeClients rest
      pure (cred.id :: ids)

def activeKeysOf (userID : ℕ) (db : Db) : List (VPNKey × Option VPNServer) :=
  (db.vpnKeys.select fun k => k.userID = userID && k.revokedAt = none).map fun k =>
    (k, db.servers.byId k.serverID)

def activeCredentialsOf (userID : ℕ) (db : Db) :
    List (VLESSCredential × Option VPNServer × Option VLESSServerTemplate) :=
  (db.vlessCredentials.select fun c => c.userID = userID && c.revokedAt = none).map fun c =>
    (c, db.servers.byId c.serverID, db.templates.first? fun t => t.serverID = c.serverID)

def revokeKeys (userID : ℕ) (now : ℤ) : Handler Unit := do
  match ← exec1 cfg (.selectKeys userID) (readOf (activeKeysOf userID)) with
  | .error _ => pure ()
  | .ok keys =>
    let revokedKeyIDs ← removePeers cfg keys
    if revokedKeyIDs = [] then pure ()
    else
      let _ ← exec1 cfg (.revokeKeys userID) (writeOf fun db => { db with
        vpnKeys := db.vpnKeys.update (fun k => k.id ∈ revokedKeyIDs && k.revokedAt = none)
          (keyRevoked now) })

def revokeCredentials (userID : ℕ) (now : ℤ) : Handler Unit := do
  match ← exec1 cfg (.selectCredentials userID) (readOf (activeCredentialsOf userID)) with
  | .error _ => pure ()
  | .ok creds =>
    let revokedCredentialIDs ← removeClients cfg creds
    if revokedCredentialIDs = [] then pure ()
    else
      let _ ← exec1 cfg (.revokeCredentials userID) (writeOf fun db => { db with
        vlessCredentials := db.vlessCredentials.update
          (fun c => c.id ∈ revokedCredentialIDs && c.revokedAt = none)
          (credentialRevoked now) })

def revokeEach (now : ℤ) : List Subscription → Handler Unit
  | [] => pure ()
  | s :: rest => do
    let _ ← revokeHappTokens cfg s.userID now
    revokeKeys cfg s.userID now
    revokeCredentials cfg s.userID now
    revokeEach now rest

def isDue (now : ℤ) (s : Subscription) : Bool :=
  s.autoRenew && s.paymentMethodID ≠ "" && s.status = .active && s.expiresAt ≤ now

def pendingUsers (recentCutoff : ℤ) (db : Db) : List ℕ :=
  ((db.payments.select fun p => p.status = .pending && recentCutoff ≤ p.createdAt).map
    Payment.userID).dedup

def isExpirable (now : ℤ) (withPending : List ℕ) (s : Subscription) : Bool :=
  s.status = .active && s.expiresAt ≤ now && s.plan ≠ .free && !(s.userID ∈ withPending)

def markedExpired : Table.Write Subscription where
  apply s := { s with status := .expired }
  id_eq _ := rfl
  key_eq _ := rfl

/-- The update answers the number of rows it changed. -/
def expireSubscriptions (now : ℤ) (withPending : List ℕ) (w : World) :
    Except DbError ℕ × World :=
  (.ok (w.db.subscriptions.count (isExpirable now withPending)), { w with
    db := { w.db with
      subscriptions := w.db.subscriptions.update (isExpirable now withPending) markedExpired } })

def chargeDue (now : ℤ) : Handler Unit :=
  if autoRenewalChargesEnabled cfg then do
    match ← exec1 cfg .renewalSelect (readOf fun db => db.subscriptions.select (isDue now)) with
    | .error _ => pure ()
    | .ok subs => chargeEach cfg subs
  else pure ()

def expireLapsed (now : ℤ) : Handler Unit := do
  let recentCutoff := now - 2 * GoTime.hour
  let withPending := match ← exec1 cfg .renewalPending (readOf (pendingUsers recentCutoff)) with
    | .error _ => []
    | .ok users => users
  match ← exec1 cfg .renewalExpire (expireSubscriptions now withPending) with
  | .error _ | .ok 0 => pure ()
  | .ok _ =>
    match ← exec1 cfg .renewalExpired (readOf fun db => db.subscriptions.select
        fun s => s.status = .expired && s.expiresAt ≤ now) with
    | .error _ => pure ()
    | .ok expiredSubs => revokeEach cfg now expiredSubs

def processAutoRenewals : Handler Unit := do
  let now ← readClock .clock
  chargeDue cfg now
  expireLapsed cfg now

/-- The loop over the ticker, for the given number of runs. -/
def runAutoRenewalScheduler : ℕ → Handler Unit
  | 0 => pure ()
  | runs + 1 => do
    processAutoRenewals cfg
    runAutoRenewalScheduler runs

/-- The labels of a revocation and of what it reads before. -/
def isRevoking : Stmt → Bool
  | .renewalPending | .renewalExpired | .revokeTokens _ | .selectKeys _ | .removePeer _ _
  | .revokeKeys _ | .selectCredentials _ | .removeClient _ _ | .revokeCredentials _ => true
  | _ => false

structure Expires (R : Stmt → World → World → Prop) : Prop where
  remote : ∀ {l w} (r : Remote), isRevoking l = true → R l w { w with remote := r }
  access : ∀ {l w} (keys : Table VPNKey) (creds : Table VLESSCredential)
    (tokens : Table HappSubscriptionToken), isRevoking l = true → R l w { w with db := { w.db with
      vpnKeys := keys, vlessCredentials := creds, happTokens := tokens } }
  expire : ∀ {w} now users, R .renewalExpire w (expireSubscriptions now users w).2
  failed : ∀ w, R .renewalExpire w w

def isCharging : Stmt → Bool
  | .clock | .renewalSelect | .renewalUser _ | .renewalExtend _ | .renewalStore _ => true
  | _ => false

structure Charges (R : Stmt → World → World → Prop) : Prop where
  idle : ∀ {l}, isCharging l = true → ∀ w, R l w w
  charge : ∀ sub, (postPayment (.renewalCharge sub.userID) (logCharge sub)).Does R
  extend : ∀ u id expiry w,
    R (.renewalExtend u) w { w with db := updateSubscription id (extendedTo expiry) w.db }
  store : ∀ sub priced amount yk status confirmedAt w, R (.renewalStore sub.userID) w
    (createPaymentOf (renewalRow sub priced amount yk status confirmedAt w.now) w).2

section Steps

variable {cfg : Setup} {R : Stmt → World → World → Prop}

section Expiry

variable (h : Expires R)
include h

theorem Expires.idle (hl : isRevoking l) (w : World) : R l w w :=
  h.remote w.remote hl

theorem does_removePeers (keys : List (VPNKey × Option VPNServer)) :
    (removePeers cfg keys).Does R := by
  induction keys with
  | nil => exact .done _
  | cons x keys ih =>
    obtain ⟨k, server⟩ := x
    have hrest : (removePeers cfg keys >>= fun ids => pure (k.id :: ids)).Does R :=
      ih.bind fun _ => .done _
    unfold removePeers
    split
    · refine (does_removeAWGPeer (fun _ _ r => h.remote r rfl)).bind ?_
      rintro (_ | _)
      · exact ih
      · exact hrest
    · exact hrest

theorem does_removeClients
    (creds : List (VLESSCredential × Option VPNServer × Option VLESSServerTemplate)) :
    (removeClients cfg creds).Does R := by
  induction creds with
  | nil => exact .done _
  | cons x creds ih =>
    refine (does_removeXrayClient (fun _ _ r => h.remote r rfl)).bind ?_
    rintro (_ | _)
    · exact ih
    · exact ih.bind fun _ => .done _

variable (userID : ℕ)

theorem does_revokeHappTokens (now : ℤ) : (revokeHappTokens cfg userID now).Does R :=
  does_exec1 (h.idle rfl) fun w => h.access w.db.vpnKeys w.db.vlessCredentials _ rfl

theorem does_revokeKeys (now : ℤ) : (revokeKeys cfg userID now).Does R := by
  refine (does_exec1 (h.idle rfl) (h.idle rfl)).bind ?_
  rintro (_ | keys)
  · exact .done _
  refine (does_removePeers h keys).bind fun ids => ?_
  split
  · exact .done _
  · exact (does_exec1 (h.idle rfl) fun w =>
      h.access _ w.db.vlessCredentials w.db.happTokens rfl).bind fun _ => .done _

theorem does_revokeCredentials (now : ℤ) : (revokeCredentials cfg userID now).Does R := by
  refine (does_exec1 (h.idle rfl) (h.idle rfl)).bind ?_
  rintro (_ | creds)
  · exact .done _
  refine (does_removeClients h creds).bind fun ids => ?_
  split
  · exact .done _
  · exact (does_exec1 (h.idle rfl) fun w =>
      h.access w.db.vpnKeys _ w.db.happTokens rfl).bind fun _ => .done _

theorem does_revokeEach (now : ℤ) (subs : List Subscription) :
    (revokeEach cfg now subs).Does R := by
  induction subs with
  | nil => exact .done _
  | cons s subs ih =>
    refine (does_revokeHappTokens h _ _).bind fun _ => ?_
    exact (does_revokeKeys h _ _).bind fun _ => (does_revokeCredentials h _ _).bind fun _ => ih

theorem does_expireLapsed (now : ℤ) : (expireLapsed cfg now).Does R := by
  refine (does_exec1 (h.idle rfl) (h.idle rfl)).bind fun users => ?_
  refine (does_exec1 h.failed fun _ => h.expire now _).bind ?_
  rintro (_ | _ | _)
  · exact .done _
  · exact .done _
  refine (does_exec1 (h.idle rfl) (h.idle rfl)).bind ?_
  rintro (_ | expired)
  · exact .done _
  · exact does_revokeEach h now expired

end Expiry

section Charging

variable (h : Charges R)
include h

variable (sub : Subscription)

theorem does_recordCharge (priced : sub.plan ≠ .free) (priceInfo : PriceInfo) :
    (recordCharge cfg sub priced priceInfo ykResp).Does R := by
  have hstore : ∀ amount yk status confirmedAt, (exec1 cfg (.renewalStore sub.userID) fun w =>
      createPaymentOf (renewalRow sub priced amount yk status confirmedAt w.now) w).Does R :=
    fun amount yk status confirmedAt =>
      does_exec1 (h.idle rfl) (h.store sub priced amount yk status confirmedAt)
  refine (Prog.does_atom (h.idle rfl)).bind fun now => ?_
  split
  · refine (does_exec1 (h.idle rfl) (h.extend _ _ _)).bind fun _ => ?_
    exact (hstore _ _ _ _).bind fun _ => .done _
  · exact (hstore _ _ _ _).bind fun _ => .done _

theorem does_chargeAutoRenewal : (chargeAutoRenewal cfg sub).Does R := by
  unfold chargeAutoRenewal
  split
  · exact .done _
  refine (does_exec1 (h.idle rfl) fun w => ?_).bind ?_
  · unfold firstOf
    split <;> exact h.idle rfl w
  rintro (_ | _)
  · exact .done _
  refine (h.charge sub).bind ?_
  rintro (_ | _)
  · exact .done _
  dsimp only
  split
  · exact .done _
  · exact (does_recordCharge h sub _ _).bind fun _ => .done _

theorem does_chargeDue (now : ℤ) : (chargeDue cfg now).Does R := by
  have heach : ∀ subs, (chargeEach cfg subs).Does R := by
    intro subs
    induction subs with
    | nil => exact .done _
    | cons sub subs ih => exact (does_chargeAutoRenewal h sub).bind fun _ => ih
  unfold chargeDue
  split
  · refine (does_exec1 (h.idle rfl) (h.idle rfl)).bind ?_
    rintro (_ | subs)
    · exact .done _
    · exact heach subs
  · exact .done _

theorem does_processAutoRenewals (he : Expires R) : (processAutoRenewals cfg).Does R := by
  refine (Prog.does_atom (h.idle rfl)).bind fun now => ?_
  exact (does_chargeDue h now).bind fun _ => does_expireLapsed he now

end Charging

end Steps

end RenewalScheduler
