import DrFrakeVpn.RenewalScheduler
import DrFrakeVpn.RoutingProfiles

/-! # Handlers that change a subscription by hand -/
namespace AccountHandlers

open FaultyTransactions RecordTables GoValues
open BackendModels BackendWorld SubscriptionActivation RenewalScheduler

variable (cfg : Setup)

def autoRenewAs (enabled : Bool) : Table.Write Subscription where
  apply sub := { sub with autoRenew := enabled }
  id_eq _ := rfl
  key_eq _ := rfl

/-- A body that cannot be bound is the message of its error. The error of the update is
dropped. -/
def setAutoRenew (userID : ℕ) (req : Except String Bool) : Handler Response :=
  match req with
  | .error message => pure (respondError 400 message)
  | .ok enabled => do
    match ← exec1 cfg (.account userID .findRenewal)
        (firstOf fun db => db.subscriptionOf userID) with
    | .error _ => pure (respondError 404 "subscription not found")
    | .ok sub =>
      if enabled && !cfg.recurringPaymentsEnabled then
        pure (respondError 409 "Автопродление временно недоступно")
      else
        let _ ← exec1 cfg (.account userID .setAutoRenew)
          (writeOf (updateSubscription sub.id (autoRenewAs enabled)))
        pure ⟨200, [("auto_renew", .bool enabled)]⟩

def withoutCard : Table.Write Subscription where
  apply sub := { sub with paymentMethodID := "", autoRenew := false }
  id_eq _ := rfl
  key_eq _ := rfl

def deleteCard (userID : ℕ) : Handler Response := do
  match ← exec1 cfg (.account userID .findCard) (firstOf fun db => db.subscriptionOf userID) with
  | .error _ => pure (respondError 404 "subscription not found")
  | .ok sub =>
    let _ ← exec1 cfg (.account userID .deleteCard)
      (writeOf (updateSubscription sub.id withoutCard))
    pure ⟨200, [("message", .str "карта удалена, автосписание отключено")]⟩

/-- A list that could not be read counts as empty, and the errors of the updates are
dropped. -/
def revokeUserKeysByID (userID : ℕ) : Handler Unit := do
  let now ← readClock .clock
  revokeKeys cfg userID now
  revokeCredentials cfg userID now
  let _ ← revokeHappTokens cfg userID now

def cancelledRow (now : ℤ) (userID : ℕ) (id : ℕ) : Subscription :=
  ⟨id, userID, .free, .cancelled, now, false, ""⟩

def cancelledAt (now : ℤ) : Table.Write Subscription where
  apply sub := { sub with
    plan := .free
    status := .cancelled
    expiresAt := now
    autoRenew := false
    paymentMethodID := "" }
  id_eq _ := rfl
  key_eq _ := rfl

def disabledAt (now : ℤ) : Table.Write RoutingProfile where
  apply p := { p with enabled := false, updatedAt := now }
  id_eq _ := rfl
  key_eq _ := rfl

def subscriptionRevocation (userID : ℕ) (now : ℤ) : DbTx Unit := do
  match ← attempt (stmt cfg (.admin userID .findSubscription)
      (firstOf fun db => db.subscriptionOf userID)) with
  | .error .recordNotFound =>
    stmt cfg (.admin userID .createSubscription)
      (tryWriteOf (createSubscription (cancelledRow now userID)))
  | .error e => throw e
  | .ok sub =>
    stmt cfg (.admin userID .updateSubscription)
      (writeOf (updateSubscription sub.id (cancelledAt now)))
  stmt cfg (.admin userID .disableProfiles) fun w => (.ok (), { w with db := { w.db with
    routingProfiles := w.db.routingProfiles.update
      (fun p => p.userID = userID && p.enabled && p.deletedAt = none) (disabledAt w.now) } })

/-- An empty body asks for the default, which is to revoke the keys as well. -/
def revokeUserSubscription (id : ℕ) (req : Except Unit (Option Bool)) : Handler Response := do
  match ← exec1 cfg (.admin id .findUser) (firstOf fun db => db.users.byId id) with
  | .error _ => pure (respondError 404 "user not found")
  | .ok user =>
    match req with
    | .error _ => pure (respondError 400 "invalid payload")
    | .ok keys =>
      let now ← readClock .clock
      match ← dbTransaction cfg (.admin user.id .revoke)
          (subscriptionRevocation cfg user.id now) with
      | .error _ => pure (respondError 500 "failed to revoke subscription")
      | .ok _ =>
        if keys.getD true then revokeUserKeysByID cfg user.id
        else let _ ← revokeHappTokens cfg user.id now
        pure ⟨200, [("message", .str "subscription revoked"), ("user_id", .num user.id),
          ("revoke_keys", .bool (keys.getD true)), ("plan", .str PlanType.free.name),
          ("status", .str "cancelled"), ("vip_disabled", .bool true)]⟩

def revokeUserKeys (id : ℕ) : Handler Response := do
  match ← exec1 cfg (.admin id .findUser) (firstOf fun db => db.users.byId id) with
  | .error _ => pure (respondError 404 "user not found")
  | .ok user =>
    revokeUserKeysByID cfg user.id
    pure ⟨200, [("message", .str "all user keys revoked")]⟩

end AccountHandlers
