import DrFrakeVpn.BackendWorld

/-! # Price list and activation of a subscription by a payment -/
namespace SubscriptionActivation

open RecordTables BackendModels BackendWorld FaultyTransactions

structure PriceInfo where
  amount : ℚ
  durationDays : ℤ
  deriving DecidableEq, Repr

def planPrices : PlanType → Option PriceInfo
  | .free => none
  | .trial => some ⟨5, 3⟩
  | .basic => some ⟨199, 30⟩
  | .basic3M => some ⟨505, 90⟩
  | .vip => some ⟨399, 30⟩
  | .vip3M => some ⟨1015, 90⟩

theorem priced_ne_free (h : planPrices plan = some info) : plan ≠ .free := by
  rintro rfl
  cases h

/-- `planPrices[plan]`: the zero value for a plan that is not in the map. -/
def priceOf (plan : PlanType) : PriceInfo := (planPrices plan).getD ⟨0, 0⟩

open GoTime in
/-- The remaining hours of the old plan in hours of the new one, at equal price per day. -/
def convertedHours (now expiresAt : ℤ) (old new : PriceInfo) : ℚ :=
  let remainingHours := hours (sub expiresAt now)
  let oldPricePerDay := float64 (old.amount / old.durationDays)
  let newPricePerDay := float64 (new.amount / new.durationDays)
  let ratio := float64 (oldPricePerDay / newPricePerDay)
  float64 (remainingHours * ratio)

def newExpiry (now : ℤ) (plan : PlanType) (sub : Subscription) : ℤ :=
  let priceInfo := priceOf plan
  if plan ≠ .trial ∧ now < sub.expiresAt ∧ sub.plan ≠ .free then
    if plan = sub.plan then
      GoTime.addDate sub.expiresAt 0 0 priceInfo.durationDays
    else
      match planPrices sub.plan with
      | none => GoTime.addDate now 0 0 priceInfo.durationDays
      | some old =>
        if old.durationDays = 0 then
          GoTime.addDate now 0 0 priceInfo.durationDays
        else
          GoTime.addDate (now + GoTime.ofHours (convertedHours now sub.expiresAt old priceInfo))
            0 0 priceInfo.durationDays
  else
    GoTime.addDate now 0 0 priceInfo.durationDays

def activatedRow (plan : PlanType) (method : String) (expiry : ℤ) : Table.Write Subscription where
  apply sub := { sub with
    plan := plan
    status := .active
    expiresAt := expiry
    autoRenew := plan ≠ .trial && method ≠ ""
    paymentMethodID := if method ≠ "" then method else sub.paymentMethodID }
  id_eq _ := rfl
  key_eq _ := rfl

def freshRow (now : ℤ) (plan : PlanType) (userID : ℕ) (method : String) (id : ℕ) :
    Subscription where
  id := id
  userID := userID
  plan := plan
  status := .active
  expiresAt := GoTime.addDate now 0 0 (priceOf plan).durationDays
  autoRenew := plan ≠ .trial && method ≠ ""
  paymentMethodID := method

def updateSubscription (id : ℕ) (f : Table.Write Subscription) (db : Db) : Db :=
  { db with subscriptions := db.subscriptions.updateId id f }

def createSubscription (mk : ℕ → Subscription) (db : Db) : Option Db :=
  (db.subscriptions.insert mk).map fun t => { db with subscriptions := t }

variable (cfg : Setup)

def keptMethod (paymentMethodID : String) : String :=
  if cfg.recurringPaymentsEnabled then paymentMethodID else ""

def activateSubscriptionFromPayment (payment : Payment) (paymentMethodID : String) :
    DbTx Unit := do
  modify fun w => { w with activations := w.activations ++
    [⟨payment.id, payment.userID, payment.plan⟩] }
  let now := (← get).now
  let paymentMethodID := keptMethod cfg paymentMethodID
  match ← attempt (stmt cfg (.activateFind payment.id)
      (firstOf fun db => db.subscriptionOf payment.userID)) with
  | .error _ =>
    -- Any error of the lookup counts as "no subscription yet".
    stmt cfg (.activateCreate payment.id)
      (tryWriteOf (createSubscription (freshRow now payment.plan payment.userID paymentMethodID)))
  | .ok sub =>
    stmt cfg (.activateUpdate payment.id)
      (writeOf (updateSubscription sub.id
        (activatedRow payment.plan paymentMethodID (newExpiry now payment.plan sub))))

def isPromoUse (promoCodeID : ℕ) (p : Payment) : Bool :=
  p.promoCodeID = some promoCodeID && p.status = .succeeded

/-- The error of the count is dropped, so a failed count reads as zero. -/
def promoSuccessfulUseCount (l : Stmt) (promoCodeID : ℕ) : DbTx ℕ := do
  match ← attempt (stmt cfg l (readOf fun db => db.payments.count (isPromoUse promoCodeID))) with
  | .ok n => pure n
  | .error _ => pure 0

def setUsedCount (promoCodeID : ℕ) (n : ℕ) (db : Db) : Db :=
  { db with
    promoCodes := db.promoCodes.updateId promoCodeID
      ⟨fun p => { p with usedCount := n }, fun _ => rfl, fun _ => rfl⟩ }

def markPromoCodeUsed (payment : Payment) : DbTx Unit :=
  match payment.promoCodeID with
  | none => pure ()
  | some promoCodeID => do
    let usedCount ← promoSuccessfulUseCount cfg (.promoCount payment.id) promoCodeID
    stmt cfg (.promoUpdate payment.id) (writeOf (setUsedCount promoCodeID usedCount))

def activatedDb (now : ℤ) (payment : Payment) (method : String) (db : Db) : Db :=
  match db.subscriptionOf payment.userID with
  | some sub => updateSubscription sub.id
      (activatedRow payment.plan method (newExpiry now payment.plan sub)) db
  | none => (createSubscription (freshRow now payment.plan payment.userID method) db).getD db

def activated (payment : Payment) (paymentMethodID : String) (w : World) : World :=
  { w with
    activations := w.activations ++ [⟨payment.id, payment.userID, payment.plan⟩]
    db := activatedDb w.now payment (keptMethod cfg paymentMethodID) w.db }

def promoMarked (payment : Payment) (w : World) : World :=
  match payment.promoCodeID with
  | none => w
  | some id => { w with db := setUsedCount id (w.db.payments.count (isPromoUse id)) w.db }

variable {db : Db} {u : ℕ}

theorem createSubscription_some (mk : ℕ → Subscription) (hid : ∀ n, (mk n).id = n)
    (hu : ∀ n, (mk n).userID = u) (h : db.subscriptionOf u = none) :
    ∃ t, db.subscriptions.insert mk = some t ∧
      createSubscription mk db = some { db with subscriptions := t } := by
  have hkey : ∀ s ∈ db.subscriptions.rows, Record.key s ≠ Record.key (mk db.subscriptions.seq) := by
    intro s hs he
    have hn := db.subscriptions.first_none h s hs
    simp [hu] at he hn
    exact hn he
  obtain ⟨t, ht⟩ := db.subscriptions.insert_isSome (hid _) hkey
  exact ⟨t, ht, by simp [createSubscription, ht]⟩

def grantedRow (now : ℤ) (payment : Payment) (method : String) (db : Db) : Subscription :=
  match db.subscriptionOf payment.userID with
  | some sub => (activatedRow payment.plan method (newExpiry now payment.plan sub)).apply sub
  | none => freshRow now payment.plan payment.userID method db.subscriptions.seq

theorem updateSubscription_subscriptionOf (hs : db.subscriptionOf u = some sub)
    (f : Table.Write Subscription) (v : ℕ) :
    (updateSubscription sub.id f db).subscriptionOf v =
      if v = u then some (f.apply sub) else db.subscriptionOf v := by
  obtain ⟨hm, hu⟩ := Db.subscriptionOf_some_iff.mp hs
  have hupd := Db.subscriptionOf_update db (fun s => s.id = sub.id) f v
  rw [show updateSubscription sub.id f db = { db with
    subscriptions := db.subscriptions.update (fun s => s.id = sub.id) f } from rfl, hupd]
  by_cases hv : v = u
  · subst hv
    simp [hs]
  · cases hr : db.subscriptionOf v with
    | none => simp [hv]
    | some r =>
      obtain ⟨hrm, hrv⟩ := Db.subscriptionOf_some_iff.mp hr
      have hne : r.id ≠ sub.id := by
        intro he
        have := db.subscriptions.id_injective hrm hm he
        subst this
        exact hv (hrv.symm.trans hu)
      simp [hv, hne]

theorem createSubscription_subscriptionOf (hc : createSubscription mk db = some db')
    (hu : ∀ n, (mk n).userID = u) (h : db.subscriptionOf u = none) (v : ℕ) :
    db'.subscriptionOf v =
      if v = u then some (mk db.subscriptions.seq) else db.subscriptionOf v := by
  unfold createSubscription at hc
  cases ht : db.subscriptions.insert mk with
  | none => simp [ht] at hc
  | some t =>
    simp only [ht, Option.map_some, Option.some.injEq] at hc
    subst hc
    obtain ⟨hrows, _, _⟩ := db.subscriptions.insert_some ht
    simp only [Db.subscriptionOf, Table.first?, hrows, List.find?_append] at h ⊢
    by_cases hv : v = u
    · subst hv
      simp [h, hu]
    · have hne : ¬ u = v := fun e => hv e.symm
      simp [hu, hv, hne]

theorem activatedDb_subscriptionOf (now : ℤ) (payment : Payment) (method : String) (db : Db)
    (v : ℕ) : (activatedDb now payment method db).subscriptionOf v =
      if v = payment.userID then some (grantedRow now payment method db)
      else db.subscriptionOf v := by
  unfold activatedDb grantedRow
  cases hs : db.subscriptionOf payment.userID with
  | some sub => exact updateSubscription_subscriptionOf hs _ v
  | none =>
    obtain ⟨t, _, hc⟩ := createSubscription_some (freshRow now payment.plan payment.userID method)
      (fun _ => rfl) (fun _ => rfl) hs
    simp only [hc, Option.getD_some]
    exact createSubscription_subscriptionOf hc (fun _ => rfl) hs v

theorem activatedDb_congr
    (h : grantedRow now payment m₁ db = grantedRow now payment m₂ db) :
    activatedDb now payment m₁ db = activatedDb now payment m₂ db := by
  unfold grantedRow at h
  unfold activatedDb
  cases hs : db.subscriptionOf payment.userID with
  | some sub =>
    simp only [hs] at h ⊢
    have hm := (Db.subscriptionOf_some_iff.mp hs).1
    unfold updateSubscription
    congr 1
    refine Table.ext_rows ?_ rfl
    refine List.map_congr_left ?_
    intro s hsm
    by_cases hid : Record.id s = sub.id
    · have : s = sub := db.subscriptions.id_injective hsm hm hid
      subst this
      simp only [hid, decide_true, if_true]
      exact h
    · simp only [hid, decide_false, Bool.false_eq_true, if_false]
  | none =>
    simp only [hs] at h ⊢
    have hrow : freshRow now payment.plan payment.userID m₁ =
        freshRow now payment.plan payment.userID m₂ := by
      have hm : m₁ = m₂ := congrArg Subscription.paymentMethodID h
      rw [hm]
    rw [hrow]

theorem exec_activate {cfg} (h : cfg.Reliable) :
    exec (activateSubscriptionFromPayment cfg payment method) w =
      (.ok (), activated cfg payment method w) := by
  unfold activateSubscriptionFromPayment
  simp only [exec_bind, exec_modify, exec_get, exec_attempt, stmt, exec_statement, h _,
    Bool.false_eq_true, if_false, firstOf]
  cases hs : w.db.subscriptionOf payment.userID with
  | some sub => simp [h _, writeOf, activated, activatedDb, hs]
  | none =>
    obtain ⟨t, _, hc⟩ := createSubscription_some
      (freshRow w.now payment.plan payment.userID (keptMethod cfg method))
      (fun _ => rfl) (fun _ => rfl) hs
    simp [h _, tryWriteOf, activated, activatedDb, hs, hc]

theorem exec_markPromoCodeUsed {cfg} (h : cfg.Reliable) :
    exec (markPromoCodeUsed cfg payment) w = (.ok (), promoMarked payment w) := by
  unfold markPromoCodeUsed promoMarked
  cases payment.promoCodeID with
  | none => rfl
  | some id =>
    simp [promoSuccessfulUseCount, exec_bind, stmt, h _, readOf, writeOf]

end SubscriptionActivation
