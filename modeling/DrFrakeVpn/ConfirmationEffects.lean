import DrFrakeVpn.PaymentCreation

/-! # What the confirming transactions do

Closed forms of the transactions when no statement fails, with the parts of the world that each
of them leaves alone. -/
namespace ConfirmationEffects

open RecordTables FaultyTransactions GoValues
open BackendModels BackendWorld SubscriptionActivation PaymentHandlers PaymentCreation

variable (cfg : Setup)

section Frames

variable (p : Payment) (method : String) (w : World)

@[simp] theorem activatedDb_payments (now : ℤ) :
    (activatedDb now p method db).payments = db.payments := by
  unfold activatedDb
  split
  · rfl
  · unfold createSubscription
    cases db.subscriptions.insert (freshRow now p.plan p.userID method) <;> rfl

@[simp] theorem activatedDb_promoCodes (now : ℤ) :
    (activatedDb now p method db).promoCodes = db.promoCodes := by
  unfold activatedDb
  split
  · rfl
  · unfold createSubscription
    cases db.subscriptions.insert (freshRow now p.plan p.userID method) <;> rfl

@[simp] theorem activated_payments :
    (activated cfg p method w).db.payments = w.db.payments := activatedDb_payments ..

@[simp] theorem activated_promoCodes :
    (activated cfg p method w).db.promoCodes = w.db.promoCodes := activatedDb_promoCodes ..

@[simp] theorem activated_activations : (activated cfg p method w).activations =
    w.activations ++ [⟨p.id, p.userID, p.plan⟩] := rfl

@[simp] theorem activated_provider : (activated cfg p method w).provider = w.provider := rfl
@[simp] theorem activated_charges : (activated cfg p method w).charges = w.charges := rfl
@[simp] theorem activated_now : (activated cfg p method w).now = w.now := rfl

@[simp] theorem promoMarked_payments : (promoMarked p w).db.payments = w.db.payments := by
  unfold promoMarked
  split <;> rfl

@[simp] theorem promoMarked_subscriptions :
    (promoMarked p w).db.subscriptions = w.db.subscriptions := by
  unfold promoMarked
  split <;> rfl

@[simp] theorem promoMarked_activations : (promoMarked p w).activations = w.activations := by
  unfold promoMarked
  split <;> rfl

@[simp] theorem promoMarked_provider : (promoMarked p w).provider = w.provider := by
  unfold promoMarked
  split <;> rfl

@[simp] theorem promoMarked_charges : (promoMarked p w).charges = w.charges := by
  unfold promoMarked
  split <;> rfl

@[simp] theorem promoMarked_now : (promoMarked p w).now = w.now := by
  unfold promoMarked
  split <;> rfl

end Frames

def marked (p : Payment) (w : World) : World :=
  { w with db := updatePayments (fun q => q.id = p.id) (succeededAt w.now) w.db }

def confirmed (p : Payment) (method : String) (w : World) : World :=
  if p.status = .succeeded then promoMarked p w
  else
    let q := (succeededAt w.now).apply p
    promoMarked q (activated cfg q method (marked p w))

/-- The method a webhook passes on: that of the request body, else the fetched one. -/
def chosenMethod (obj : List (String × Json)) (d : PaymentDetails) : String :=
  if savedMethod obj = "" then d.paymentMethodID else savedMethod obj

variable {cfg}

theorem exec_webhookConfirmation (h : cfg.Reliable) : exec (webhookConfirmation cfg yk obj d) w =
      match paymentByYooKassaID yk w.db with
      | none => (.error .recordNotFound, w)
      | some p => (.ok (), confirmed cfg p (chosenMethod obj d) w) := by
  unfold webhookConfirmation
  simp only [stmt, exec_bind, exec_statement, h _, Bool.false_eq_true, if_false, firstOf]
  cases paymentByYooKassaID yk w.db with
  | none => rfl
  | some p =>
    by_cases hs : p.status = .succeeded
    · simp [hs, confirmed, exec_markPromoCodeUsed h]
    · simp only [hs, confirmed, if_false, exec_bind, exec_get, exec_ignoring, exec_statement, h _,
        Bool.false_eq_true, writeOf, exec_attempt, firstOf]
      cases Db.subscriptionOf _ ((succeededAt w.now).apply p).userID <;>
        simp [exec_bind, exec_activate h, exec_markPromoCodeUsed h, chosenMethod, marked]

theorem exec_reconcileConfirmation (h : cfg.Reliable) : exec (reconcileConfirmation cfg p d) w =
      match w.db.payments.byId p.id with
      | none => (.error .recordNotFound, w)
      | some current => (.ok (), confirmed cfg current d.paymentMethodID w) := by
  unfold reconcileConfirmation
  simp only [stmt, exec_bind, exec_statement, h _, Bool.false_eq_true, if_false, firstOf]
  cases w.db.payments.byId p.id with
  | none => rfl
  | some current =>
    by_cases hs : current.status = .succeeded
    · simp [hs, confirmed, exec_markPromoCodeUsed h]
    · simp [hs, confirmed, exec_bind, h _, writeOf, exec_activate h, exec_markPromoCodeUsed h,
        marked]

theorem transact_webhookConfirmation (h : cfg.Reliable) :
    transact rollback (webhookConfirmation cfg yk obj d) w =
      match paymentByYooKassaID yk w.db with
      | none => (.error .recordNotFound, w)
      | some p => (.ok (), confirmed cfg p (chosenMethod obj d) w) := by
  rw [transact, exec_webhookConfirmation h]
  cases paymentByYooKassaID yk w.db <;> rfl

theorem transact_reconcileConfirmation (h : cfg.Reliable) :
    transact rollback (reconcileConfirmation cfg p d) w =
      match w.db.payments.byId p.id with
      | none => (.error .recordNotFound, w)
      | some current => (.ok (), confirmed cfg current d.paymentMethodID w) := by
  rw [transact, exec_reconcileConfirmation h]
  cases w.db.payments.byId p.id <;> rfl

section Confirmed

variable (cfg) (p : Payment) (method : String) (w : World)

theorem confirmed_payments : (confirmed cfg p method w).db.payments =
    if p.status = .succeeded then w.db.payments
    else w.db.payments.updateId p.id (succeededAt w.now) := by
  unfold confirmed
  split
  · simp
  · simp [marked, updatePayments, Table.updateId]

theorem confirmed_activations : (confirmed cfg p method w).activations =
    if p.status = .succeeded then w.activations
    else w.activations ++ [⟨p.id, p.userID, p.plan⟩] := by
  unfold confirmed
  split
  · simp
  · simp [marked, succeededAt]

@[simp] theorem confirmed_provider : (confirmed cfg p method w).provider = w.provider := by
  unfold confirmed
  split <;> simp [marked]

@[simp] theorem confirmed_charges : (confirmed cfg p method w).charges = w.charges := by
  unfold confirmed
  split <;> simp [marked]

@[simp] theorem confirmed_now : (confirmed cfg p method w).now = w.now := by
  unfold confirmed
  split <;> simp [marked]

theorem confirmed_subscriptionOf (v : ℕ) : (confirmed cfg p method w).db.subscriptionOf v =
    if p.status ≠ .succeeded ∧ v = p.userID then
      some (grantedRow w.now p (keptMethod cfg method) w.db)
    else w.db.subscriptionOf v := by
  unfold confirmed
  split
  · next hs => simp [Db.subscriptionOf, hs]
  · next hs =>
    have hact := activatedDb_subscriptionOf w.now ((succeededAt w.now).apply p)
      (keptMethod cfg method) (marked p w).db v
    simp only [hs, ne_eq, not_false_eq_true, true_and]
    simp only [Db.subscriptionOf, promoMarked_subscriptions] at hact ⊢
    exact hact

end Confirmed

variable (cfg) in
/-- `t` is the table after the row that was read before the transaction is written back. -/
def approved (p : Payment) (now : ℤ) (t : Table Payment) (w : World) : World :=
  let q := approvedRow p now
  promoMarked q (activated cfg q "" { w with db := { w.db with payments := t } })

theorem exec_approveConfirmation (h : cfg.Reliable)
    (ht : w.db.payments.replace (approvedRow p now) = some t) :
    exec (approveConfirmation cfg p now) w = (.ok (), approved cfg p now t w) := by
  have hs : savePayment (approvedRow p now) w.db = some { w.db with payments := t } := by
    simp [savePayment, ht]
  unfold approveConfirmation
  simp [exec_bind, stmt, h _, tryWriteOf, hs, exec_activate h, exec_markPromoCodeUsed h, approved]

variable (p : Payment)

@[simp] theorem approved_payments (now : ℤ) (t : Table Payment) (w : World) :
    (approved cfg p now t w).db.payments = t := by
  simp [approved]

theorem approved_activations (now : ℤ) (t : Table Payment) (w : World) :
    (approved cfg p now t w).activations = w.activations ++ [⟨p.id, p.userID, p.plan⟩] := by
  simp [approved, approvedRow]

theorem approved_subscriptionOf (now : ℤ) (t : Table Payment) (w : World) (v : ℕ) :
    (approved cfg p now t w).db.subscriptionOf v =
      if v = p.userID then some (grantedRow w.now p (keptMethod cfg "") w.db)
      else w.db.subscriptionOf v := by
  have hact := activatedDb_subscriptionOf w.now (approvedRow p now) (keptMethod cfg "")
    { w.db with payments := t } v
  simp only [approved, Db.subscriptionOf, promoMarked_subscriptions] at hact ⊢
  exact hact

variable (cfg) in
def freelyConfirmed (q : Payment) (t : Table Payment) (w : World) : World :=
  promoMarked q (activated cfg q "" { w with db := { w.db with payments := t } })

variable (q : Payment)

@[simp] theorem freelyConfirmed_payments (t : Table Payment) (w : World) :
    (freelyConfirmed cfg q t w).db.payments = t := by
  simp [freelyConfirmed]

theorem freelyConfirmed_activations (t : Table Payment) (w : World) :
    (freelyConfirmed cfg q t w).activations = w.activations ++ [⟨q.id, q.userID, q.plan⟩] := by
  simp [freelyConfirmed]

theorem freelyConfirmed_subscriptionOf (t : Table Payment) (w : World) (v : ℕ) :
    (freelyConfirmed cfg q t w).db.subscriptionOf v =
      if v = q.userID then some (grantedRow w.now q (keptMethod cfg "") w.db)
      else w.db.subscriptionOf v := by
  have hact := activatedDb_subscriptionOf w.now q (keptMethod cfg "")
    { w.db with payments := t } v
  simp only [freelyConfirmed, Db.subscriptionOf, promoMarked_subscriptions] at hact ⊢
  exact hact

theorem exec_freeConfirmation (h : cfg.Reliable) (u : ℕ) (uuid : String)
    (req : CreatePaymentRequest) (app : PromoApplication) (now : ℤ) (w : World) :
    let row := paymentRow u req ("promo-" ++ uuid) { app with finalAmount := 0 } .succeeded ""
      (some now) w.now
    exec (freeConfirmation cfg u uuid req app now) w =
      match w.db.payments.insert row with
      | none => (.error .constraint, w)
      | some t => (.ok (row w.db.payments.seq),
          freelyConfirmed cfg (row w.db.payments.seq) t w) := by
  unfold freeConfirmation
  simp only [stmt, exec_bind, exec_get, exec_statement, h _, Bool.false_eq_true, if_false,
    createPaymentOf]
  cases w.db.payments.insert _ with
  | none => rfl
  | some t => simp [exec_activate h, exec_markPromoCodeUsed h, freelyConfirmed]

end ConfirmationEffects
