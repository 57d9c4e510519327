import DrFrakeVpn.SubscriptionActivation

/-! # The handlers that create and confirm payments

Log lines and the fields that are only sent to the provider are left out. -/
namespace PaymentHandlers

open FaultyTransactions RecordTables GoValues
open BackendModels BackendWorld SubscriptionActivation

variable (cfg : Setup)

def fetchYooKassaPaymentDetails (paymentID : String) : Handler (Option PaymentDetails) :=
  .atom (.fetchPayment paymentID) fun w => (detailsOf (w.provider.reply paymentID), w)

def paymentByYooKassaID (yk : String) (db : Db) : Option Payment :=
  db.payments.first? fun p => p.yooKassaID = yk

def setPaymentStatus (status : PaymentStatus) : Table.Write Payment where
  apply p := { p with status := status }
  id_eq _ := rfl
  key_eq _ := rfl

def succeededAt (now : ℤ) : Table.Write Payment where
  apply p := { p with status := .succeeded, confirmedAt := some now }
  id_eq _ := rfl
  key_eq _ := rfl

def updatePayments (q : Payment → Bool) (f : Table.Write Payment) (db : Db) : Db :=
  { db with payments := db.payments.update q f }

def savePayment (p : Payment) (db : Db) : Option Db :=
  (db.payments.replace p).map fun t => { db with payments := t }

/-- The body of the confirming transaction; `obj` is `object` of the request body. -/
def webhookConfirmation (ykPaymentID : String) (obj : List (String × Json))
    (paymentDetails : PaymentDetails) : DbTx Unit := do
  let payment ← stmt cfg (.webhookFind ykPaymentID) (firstOf (paymentByYooKassaID ykPaymentID))
  if payment.status = .succeeded then
    markPromoCodeUsed cfg payment
  else
    let now := (← get).now
    ignoring (stmt cfg (.webhookMark ykPaymentID)
      (writeOf (updatePayments (fun p => p.id = payment.id) (succeededAt now))))
    let payment := (succeededAt now).apply payment
    let paymentMethodID := savedMethod obj
    let paymentMethodID :=
      if paymentMethodID = "" then paymentDetails.paymentMethodID else paymentMethodID
    match ← attempt (stmt cfg (.webhookSubscription ykPaymentID)
        (firstOf fun db => db.subscriptionOf payment.userID)) with
    | .error .recordNotFound => pure ()
    | .error e => throw e
    | .ok _ => pure ()
    activateSubscriptionFromPayment cfg payment paymentMethodID
    markPromoCodeUsed cfg payment

def webhook (body : Option Json) : Handler Response :=
  match bindMap body with
  | none => pure (respondError 400 "invalid payload")
  | some event => do
    let eventType := asString (lookup event "event")
    let obj := asMap (lookup event "object")
    let ykPaymentID := asString (lookup obj "id")
    if eventType = "payment.canceled" then
      match ← fetchYooKassaPaymentDetails ykPaymentID with
      | none => pure ⟨200, [("status", .str "verification_failed")]⟩
      | some paymentDetails =>
        if paymentDetails.status ≠ "canceled" then
          pure ⟨200, [("status", .str "verification_failed")]⟩
        else
          match ← exec1 cfg (.webhookCancel ykPaymentID) (writeOf
              (updatePayments (fun p => p.yooKassaID = ykPaymentID)
                (setPaymentStatus .cancelled))) with
          | .error _ => pure (respondError 500 "webhook processing failed")
          | .ok _ => pure ⟨200, [("status", .str "ok")]⟩
    else if eventType ≠ "payment.succeeded" then
      pure ⟨200, [("status", .str "ignored")]⟩
    else
      match ← fetchYooKassaPaymentDetails ykPaymentID with
      | none => pure ⟨200, [("status", .str "verification_failed")]⟩
      | some paymentDetails =>
        if paymentDetails.status ≠ "succeeded" then
          pure ⟨200, [("status", .str "verification_failed")]⟩
        else
          match ← dbTransaction cfg (.webhookConfirm ykPaymentID)
              (webhookConfirmation cfg ykPaymentID obj paymentDetails) with
          | .error _ => pure (respondError 500 "webhook processing failed")
          | .ok _ => pure ⟨200, [("status", .str "ok")]⟩

def reconcileConfirmation (payment : Payment) (details : PaymentDetails) : DbTx Unit := do
  let current ← stmt cfg (.reconcileFind payment.id) (firstOf fun db => db.payments.byId payment.id)
  if current.status = .succeeded then
    markPromoCodeUsed cfg current
  else
    let now := (← get).now
    stmt cfg (.reconcileMark payment.id)
      (writeOf (updatePayments (fun p => p.id = current.id) (succeededAt now)))
    let current := (succeededAt now).apply current
    activateSubscriptionFromPayment cfg current details.paymentMethodID
    markPromoCodeUsed cfg current

def reconcileEach : List Payment → Handler (Except DbError Unit)
  | [] => pure (.ok ())
  | payment :: rest =>
    if hasPrefix payment.yooKassaID "promo-" then reconcileEach rest
    else do
      match ← fetchYooKassaPaymentDetails payment.yooKassaID with
      | none => reconcileEach rest
      | some details =>
        if details.status = "succeeded" then
          match ← dbTransaction cfg (.reconcileConfirm payment.id)
              (reconcileConfirmation cfg payment details) with
          | .error e => pure (.error e)
          | .ok _ => reconcileEach rest
        else if details.status = "canceled" then
          match ← exec1 cfg (.reconcileCancel payment.id) (writeOf
              (updatePayments (fun p => p.id = payment.id && p.status = .pending)
                (setPaymentStatus .cancelled))) with
          | .error e => pure (.error e)
          | .ok _ => reconcileEach rest
        else reconcileEach rest

/-- The five newest pending payments of the user; `created_at desc` leaves ties open and
they are broken by insertion here. -/
def pendingPaymentsOf (userID : ℕ) (db : Db) : List Payment :=
  let pending := db.payments.select fun p => p.userID = userID && p.status = .pending
  (pending.insertionSort fun a b => b.createdAt ≤ a.createdAt).take 5

def reconcilePendingUserPayments (userID : ℕ) : Handler (Except DbError Unit) :=
  if cfg.shopID = "" ∨ cfg.key = "" then pure (.ok ())
  else do
    match ← exec1 cfg (.reconcileSelect userID) (readOf (pendingPaymentsOf userID)) with
    | .error e => pure (.error e)
    | .ok payments => reconcileEach cfg payments

def approvedRow (p : Payment) (now : ℤ) : Payment :=
  { p with
    originalAmount := if p.originalAmount = 0 then p.amount + p.discountAmount else p.originalAmount
    status := .succeeded
    confirmedAt := some now }

def approveConfirmation (p : Payment) (now : ℤ) : DbTx Unit := do
  let p := approvedRow p now
  stmt cfg (.approveSave p.id) (tryWriteOf (savePayment p))
  activateSubscriptionFromPayment cfg p ""
  markPromoCodeUsed cfg p

def approvePayment (id : ℕ) : Handler Response := do
  match ← exec1 cfg (.approveFind id) (firstOf fun db => db.payments.byId id) with
  | .error _ => pure (respondError 404 "payment not found")
  | .ok p =>
    if p.status = .succeeded then
      pure ⟨200, [("message", .str "payment already approved")]⟩
    else do
      let now ← readClock .clock
      match ← dbTransaction cfg (.approveConfirm id) (approveConfirmation cfg p now) with
      | .error _ => pure (respondError 500 "failed to approve payment")
      | .ok _ => pure ⟨200, [("message", .str "payment manually approved and subscription issued")]⟩

/-- `Save` of a subscription: every column of the row, or a new row when there is none.
The modelled handlers delete no subscription, so a row that was found is still there. -/
def saveSubscription (found : Option Subscription) (row : ℕ → Subscription) (db : Db) : Option Db :=
  match found with
  | some sub => (db.subscriptions.replace (row sub.id)).map fun t => { db with subscriptions := t }
  | none => createSubscription row db

def upgradedRow (userID : ℕ) (plan : PlanType) (now : ℤ) (found : Option Subscription) (id : ℕ) :
    Subscription where
  id := id
  userID := (found.map (·.userID)).getD userID
  plan := plan
  status := .active
  expiresAt := GoTime.addDate now 0 1 0
  autoRenew := (found.map (·.autoRenew)).getD false
  paymentMethodID := (found.map (·.paymentMethodID)).getD ""

/-- The plan that a request names; an empty text stands for basic. -/
def supportedPlan (plan : String) : Option PlanType :=
  match if plan = "" then some PlanType.basic else PlanType.ofName? plan with
  | none | some .free | some .trial => none
  | some plan => some plan

def upgradeTo (userID : ℕ) (plan : PlanType) : Handler Response := do
  -- `FirstOrInit` drops the error of the lookup and starts from an empty row.
  let found ← exec1 cfg (.upgradeSubscription userID) (firstOf fun db => db.subscriptionOf userID)
  let found := match found with
    | .ok sub => some sub
    | .error _ => none
  let now ← readClock .clock
  let _ ← exec1 cfg (.upgradeSave userID)
    (tryWriteOf (saveSubscription found (upgradedRow userID plan now found)))
  pure ⟨200, [("message", .str ("user upgraded to " ++ plan.name))]⟩

/-- `plan` is the text of the request, empty when the body has none. -/
def upgradeUser (userID : ℕ) (plan : String) : Handler Response := do
  match ← exec1 cfg (.upgradeUser userID) (firstOf fun db => db.users.byId userID) with
  | .error _ => pure (respondError 404 "user not found")
  | .ok user =>
    match supportedPlan plan with
    | none => pure (respondError 400 "unsupported plan")
    | some plan => upgradeTo cfg user.id plan

/-- An invariant of the clock and the subscriptions that granting a plan keeps. -/
structure Granting (I : World → Prop) : Prop where
  frame : ∀ {w w' : World}, w'.now = w.now → w'.db.subscriptions = w.db.subscriptions → I w → I w'
  create : ∀ now plan userID method {w : World} {db : Db},
    createSubscription (freshRow now plan userID method) w.db = some db → I w →
      I { w with db := db }
  update : ∀ id plan method expiry {w : World}, I w →
    I { w with db := updateSubscription id (activatedRow plan method expiry) w.db }

section Granting

variable {cfg} {I : World → Prop}

theorem preserves_first {α : Type} {l} (find : Db → Option α) :
    Preserves I (stmt cfg l (firstOf find)) := by
  refine preserves_statement fun w hw => ?_
  unfold firstOf
  split <;> exact hw

variable (h : Granting I)
include h

variable (payment : Payment)

theorem preserves_activate (method : String) :
    Preserves I (activateSubscriptionFromPayment cfg payment method) := by
  refine Preserves.bind (fun w => h.frame rfl rfl) fun _ =>
    Preserves.bind (fun w hw => hw) fun now => ?_
  refine (preserves_first _).attempt.bind ?_
  rintro (e | sub)
  · refine preserves_statement fun w hw => ?_
    unfold tryWriteOf
    split
    · next hdb => exact h.create _ _ _ _ hdb hw
    · exact hw
  · exact preserves_statement fun w => h.update _ _ _ _

theorem preserves_promo : Preserves I (markPromoCodeUsed cfg payment) := by
  unfold markPromoCodeUsed
  split
  · exact preserves_pure ()
  refine Preserves.bind ?_ fun n => preserves_statement fun w => h.frame rfl rfl
  refine (preserves_statement fun w hw => hw).attempt.bind ?_
  rintro (e | n) <;> exact preserves_pure _

theorem preserves_reconcileConfirmation (p : Payment) (d : PaymentDetails) :
    Preserves I (reconcileConfirmation cfg p d) := by
  refine (preserves_first _).bind fun current => ?_
  split
  · exact preserves_promo h current
  refine Preserves.bind (fun w hw => hw) fun now => ?_
  refine Preserves.bind (preserves_statement fun w => h.frame rfl rfl) fun _ => ?_
  exact (preserves_activate h _ _).bind fun _ => preserves_promo h _

end Granting

end PaymentHandlers
