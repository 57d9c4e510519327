import DrFrakeVpn.ConfirmationEffects
import DrFrakeVpn.SubscriptionValue

/-! # What a granting operation leaves of a running subscription

A grant is a confirmed payment or an upgrade by an admin. Each replaces plan and expiry of the
subscription. -/
namespace GrantedValue

open GoTime BinaryRounding SharedPrograms RecordTables FaultyTransactions GoValues Prog
open BackendModels BackendWorld SubscriptionActivation SubscriptionValue
open PaymentHandlers PaymentCreation ConfirmationEffects

def Kept (now : ℤ) (sub : Subscription) (plan : PlanType) (expiresAt : ℤ) : Prop :=
  valueAt now sub - hourPrice plan < worth now plan expiresAt

section Payments

variable {now : ℤ} {plan : PlanType} {sub : Subscription}

theorem hourPrice_le_amount (hp : plan ≠ .free) : hourPrice plan ≤ (priceOf plan).amount := by
  have hdays : (1 : ℚ) ≤ (priceOf plan).durationDays := by
    exact_mod_cast (priced_of_ne_free hp).duration
  have hprice := pricePerDay_pos hp
  rw [← durationDays_mul_pricePerDay hp, hourPrice]
  nlinarith

/-- Converted time is kept exactly when the product of hours is in range, and the cut at the
longest duration, if there is one, costs less than the new period and an hour. Without a cut the
roundings cost less than the new period. -/
theorem kept_other_iff (hp : plan ≠ .free) (ht : plan ≠ .trial) (he : now < sub.expiresAt)
    (hf : sub.plan ≠ .free) (hs : plan ≠ sub.plan) :
    Kept now sub plan (newExpiry now plan sub) ↔
      wholeHours now plan sub * hour ≤ maxDuration ∧
        (maxDuration < sub.expiresAt - now → valueAt now sub <
          (wholeHours now plan sub + 1) * hourPrice plan + (priceOf plan).amount) := by
  by_cases hover : maxDuration < wholeHours now plan sub * hour
  · constructor
    · intro hk
      exact absurd hk (not_lt.mpr (worth_overflow_le hp ht he hf hs hover))
    · intro hfits
      omega
  · have hfit : wholeHours now plan sub * hour ≤ maxDuration := by omega
    rw [Kept, worth_newExpiry_other hp ht he hf hs hfit]
    constructor
    · intro hk
      refine ⟨hfit, ?_⟩
      intro _
      linarith
    · intro hcut
      by_cases hlong : maxDuration < sub.expiresAt - now
      · have := hcut.2 hlong
        linarith
      · have hlt := lt_wholeHours_mul hp he (by omega)
        have hamount := hourPrice_le_amount hp
        have hhour := hourPrice_pos hp
        have hwhole : (wholeHours now plan sub : ℚ) * hourPrice plan ≤ 10 ^ 9 * hourPrice plan :=
          mul_le_mul_of_nonneg_right (by exact_mod_cast wholeHours_le hp he) hhour.le
        norm_num [conversionError, rounding, unit] at hlt hwhole
        linarith

theorem kept_trial_iff : Kept now sub .trial (newExpiry now .trial sub) ↔
    valueAt now sub < (priceOf .trial).amount + hourPrice .trial := by
  rw [Kept, newExpiry_period (.inl rfl), worth_period (by decide)]
  constructor <;> intro h <;> linarith

theorem kept_same (hp : plan ≠ .free) (ht : plan ≠ .trial) (he : now < sub.expiresAt)
    (hs : plan = sub.plan) : Kept now sub plan (newExpiry now plan sub) := by
  have hf : sub.plan ≠ .free := hs ▸ hp
  have hamount := (priced_of_ne_free hp).amount
  have hhour := hourPrice_pos hp
  rw [Kept, newExpiry_same ht he hf hs, worth_add_period hp he.le, valueAt, ← hs]
  linarith

end Payments

/-- What an operation grants: a period of a plan, or an upgrade to one. -/
inductive Offer where
  | payment (plan : PlanType) (priced : plan ≠ .free)
  | upgrade (plan : PlanType)

def Offer.plan : Offer → PlanType
  | .payment plan _ | .upgrade plan => plan

def Offer.expiry (now : ℤ) (sub : Subscription) : Offer → ℤ
  | .payment plan _ => newExpiry now plan sub
  | .upgrade _ => addDate now 0 1 0

/-- The state before the grant in which it takes nothing away. -/
def Offer.Covers (now : ℤ) (sub : Subscription) : Offer → Prop
  | .payment .trial _ => valueAt now sub < (priceOf .trial).amount + hourPrice .trial
  | .payment plan _ => plan = sub.plan ∨
      wholeHours now plan sub * hour ≤ maxDuration ∧
        (maxDuration < sub.expiresAt - now → valueAt now sub <
          (wholeHours now plan sub + 1) * hourPrice plan + (priceOf plan).amount)
  | .upgrade plan => valueAt now sub <
      worth now plan (addDate now 0 1 0) + hourPrice plan

inductive Grant where
  | webhook (yk : String) (obj : List (String × Json)) (details : PaymentDetails)
  | reconcile (payment : Payment) (details : PaymentDetails)
  | approve (id : ℕ)
  | free (userID : ℕ) (uuid : String) (req : CreatePaymentRequest) (app : PromoApplication)
      (now : ℤ)
  | upgrade (userID : ℕ) (plan : String)

variable (cfg : Setup)

def Grant.run (w : World) : Grant → World
  | .webhook yk obj d => ((dbTransaction cfg (.webhookConfirm yk)
      (webhookConfirmation cfg yk obj d)).run w).2
  | .reconcile p d => ((dbTransaction cfg (.reconcileConfirm p.id)
      (reconcileConfirmation cfg p d)).run w).2
  | .approve id => ((approvePayment cfg id).run w).2
  | .free u uuid req app now => ((dbTransaction cfg
      (.createPayment u req.plan (app.promoCode.map (·.id)) .freeConfirm)
      (freeConfirmation cfg u uuid req app now)).run w).2
  | .upgrade u plan => ((upgradeUser cfg u plan).run w).2

def unsettled (p : Payment) : Option (ℕ × Offer) :=
  if p.status = .succeeded then none else some (p.userID, .payment p.plan p.plan_priced)

def freeRow (u : ℕ) (uuid : String) (req : CreatePaymentRequest) (app : PromoApplication)
    (now createdAt : ℤ) : ℕ → Payment :=
  paymentRow u req ("promo-" ++ uuid) { app with finalAmount := 0 } .succeeded "" (some now)
    createdAt

def Grant.offer (w : World) : Grant → Option (ℕ × Offer)
  | .webhook yk _ _ => (paymentByYooKassaID yk w.db).bind unsettled
  | .reconcile p _ => (w.db.payments.byId p.id).bind unsettled
  | .approve id => (w.db.payments.byId id).bind unsettled
  | .free u uuid req app now =>
    (w.db.payments.insert (freeRow u uuid req app now w.now)).map fun _ =>
      (u, .payment req.plan req.plan_priced)
  | .upgrade u plan =>
    (w.db.users.byId u).bind fun user => (supportedPlan plan).map fun p => (user.id, .upgrade p)

variable {cfg}

/-- The subscription of a user after the operation, given the one before. -/
def After (offer : Option (ℕ × Offer)) (now : ℤ) (v : ℕ) (sub sub' : Subscription) : Prop :=
  match offer with
  | none => sub' = sub
  | some (u, o) =>
    if v = u then sub'.plan = o.plan ∧ sub'.expiresAt = o.expiry now sub else sub' = sub

section Runs

variable {w : World} {v : ℕ} {sub : Subscription} {p : Payment} {method : String}

theorem grantedRow_after (hs : db.subscriptionOf p.userID = some sub) :
    (grantedRow now p method db).plan = p.plan ∧
      (grantedRow now p method db).expiresAt = newExpiry now p.plan sub := by
  simp [grantedRow, hs, activatedRow]

theorem activation_after {w' : World} (hs : w.db.subscriptionOf v = some sub)
    (hw : w'.db.subscriptionOf v =
      if v = p.userID then some (grantedRow w.now p method w.db) else w.db.subscriptionOf v) :
    ∃ sub', w'.db.subscriptionOf v = some sub' ∧
      After (some (p.userID, .payment p.plan p.plan_priced)) w.now v sub sub' := by
  by_cases hv : v = p.userID
  · subst hv
    refine ⟨_, by rw [hw, if_pos rfl], ?_⟩
    simp only [After, if_true]
    exact grantedRow_after hs
  · exact ⟨sub, by rw [hw, if_neg hv, hs], by simp [After, if_neg hv]⟩

theorem confirmed_after (hs : w.db.subscriptionOf v = some sub) :
    ∃ sub', (confirmed cfg p method w).db.subscriptionOf v = some sub' ∧
      After (unsettled p) w.now v sub sub' := by
  have hconf := confirmed_subscriptionOf cfg p method w v
  unfold unsettled
  by_cases hst : p.status = .succeeded
  · simp only [hst, ne_eq, not_true_eq_false, false_and, if_false, if_true] at hconf ⊢
    exact ⟨sub, by rw [hconf, hs], rfl⟩
  · simp only [hst, ne_eq, not_false_eq_true, true_and, if_false] at hconf ⊢
    exact activation_after hs hconf

theorem approvedRow_replace (p : Payment) (now : ℤ) (h : w.db.payments.byId p.id = some p) :
    ∃ t, w.db.payments.replace (approvedRow p now) = some t :=
  w.db.payments.replace_isSome h rfl

theorem approve_after (h : cfg.Reliable) (id : ℕ) (hs : w.db.subscriptionOf v = some sub) :
    ∃ sub', ((approvePayment cfg id).run w).2.db.subscriptionOf v = some sub' ∧
      After ((w.db.payments.byId id).bind unsettled) w.now v sub sub' := by
  simp only [approvePayment, exec1_reliable h, dbTransaction_reliable h, readClock, bind_eq,
    atom_bind, run_act, firstOf]
  cases hp : w.db.payments.byId id with
  | none => exact ⟨sub, hs, rfl⟩
  | some p =>
    simp only [Option.bind_some, unsettled]
    by_cases hst : p.status = .succeeded
    · simp only [hst, if_true]
      exact ⟨sub, hs, rfl⟩
    · have hid : p.id = id := (w.db.payments.byId_some_iff.mp hp).2
      obtain ⟨t, ht⟩ := approvedRow_replace p w.now (hid ▸ hp)
      have htx : transact rollback (approveConfirmation cfg p w.now) w =
          (.ok (), approved cfg p w.now t w) := transact_ok (exec_approveConfirmation h ht)
      simp only [hst, if_false, Prog.run_act, htx]
      exact activation_after hs (approved_subscriptionOf p w.now t w v)

theorem free_after (h : cfg.Reliable) (u : ℕ) (uuid : String) (req : CreatePaymentRequest)
    (app : PromoApplication) (now : ℤ) (hs : w.db.subscriptionOf v = some sub) :
    ∃ sub', ((Grant.free u uuid req app now).run cfg w).db.subscriptionOf v = some sub' ∧
      After ((Grant.free u uuid req app now).offer w) w.now v sub sub' := by
  simp only [Grant.run, Grant.offer, dbTransaction_reliable h, atom, run_act, Prog.run_done,
    transact, exec_freeConfirmation h, freeRow]
  cases w.db.payments.insert _ with
  | none => exact ⟨sub, hs, rfl⟩
  | some t => exact activation_after hs (freelyConfirmed_subscriptionOf _ t w v)

theorem replace_subscriptionOf {db : Db} (hold : db.subscriptionOf u = some old)
    (new : Subscription) (hid : new.id = old.id) (hu : new.userID = u) :
    ∃ t, db.subscriptions.replace new = some t ∧
      (({ db with subscriptions := t } : Db)).subscriptionOf u = some new ∧
      ∀ v, v ≠ u → ({ db with subscriptions := t } : Db).subscriptionOf v =
        db.subscriptionOf v := by
  obtain ⟨hm, huser⟩ := Db.subscriptionOf_some_iff.mp hold
  have hbyId := db.subscriptions.byId_some_iff.mpr ⟨hm, hid.symm⟩
  obtain ⟨t, ht⟩ := db.subscriptions.replace_isSome hbyId (huser.trans hu.symm)
  obtain ⟨hrows, _⟩ := db.subscriptions.replace_some ht
  have hrow : ∀ r ∈ db.subscriptions.rows, (if Record.id r = Record.id new then new else r) =
      if r = old then new else r := by
    intro r hr
    by_cases he : r = old
    · rw [if_pos he, if_pos (he ▸ hid.symm)]
    · have hne : Record.id r ≠ Record.id new := fun hid' =>
        he (db.subscriptions.id_injective hr hm (hid'.trans hid))
      rw [if_neg he, if_neg hne]
  have hrows' : t.rows = db.subscriptions.rows.map fun r => if r = old then new else r := by
    rw [hrows]
    exact List.map_congr_left hrow
  refine ⟨t, ht, ?_, ?_⟩
  · refine Db.subscriptionOf_some_iff.mpr ⟨?_, hu⟩
    rw [hrows']
    exact List.mem_map.mpr ⟨old, hm, if_pos rfl⟩
  · intro v hv
    refine Option.ext fun r => ?_
    rw [Db.subscriptionOf_some_iff, Db.subscriptionOf_some_iff, hrows']
    constructor
    · rintro ⟨hmem, hrv⟩
      obtain ⟨s, hsm, rfl⟩ := List.mem_map.mp hmem
      by_cases he : s = old
      · rw [if_pos he] at hrv
        exact absurd (hrv.symm.trans hu) hv
      · rw [if_neg he] at hrv ⊢
        exact ⟨hsm, hrv⟩
    · rintro ⟨hmem, hrv⟩
      have he : r ≠ old := by
        rintro rfl
        exact hv (hrv.symm.trans huser)
      exact ⟨List.mem_map.mpr ⟨r, hmem, if_neg he⟩, hrv⟩

theorem upgradeTo_run (h : cfg.Reliable) (u : ℕ) (plan : PlanType) (w : World) :
    ∃ row, ((upgradeTo cfg u plan).run w).2.db.subscriptionOf u = some row ∧
      (row.plan = plan ∧ row.expiresAt = addDate w.now 0 1 0) ∧
      ∀ v, v ≠ u →
        ((upgradeTo cfg u plan).run w).2.db.subscriptionOf v = w.db.subscriptionOf v := by
  simp only [upgradeTo, exec1_reliable h, readClock, bind_eq, atom_bind, run_act,
    firstOf, tryWriteOf, pure_eq, Prog.run_done]
  cases hs : w.db.subscriptionOf u with
  | some old =>
    have hu := (Db.subscriptionOf_some_iff.mp hs).2
    obtain ⟨t, ht, hmine, hothers⟩ :=
      replace_subscriptionOf hs (upgradedRow u plan w.now (some old) old.id) rfl hu
    simp only [saveSubscription, ht, Option.map_some]
    exact ⟨_, hmine, ⟨rfl, rfl⟩, hothers⟩
  | none =>
    obtain ⟨t, _, hc⟩ := createSubscription_some (upgradedRow u plan w.now none)
      (fun _ => rfl) (fun _ => rfl) hs
    simp only [saveSubscription, hc]
    have hrow := createSubscription_subscriptionOf hc (fun _ => rfl) hs
    refine ⟨_, (hrow u).trans (if_pos rfl), ⟨rfl, rfl⟩, ?_⟩
    intro v hv
    exact (hrow v).trans (if_neg hv)

theorem upgrade_after (h : cfg.Reliable) (u : ℕ) (plan : String)
    (hs : w.db.subscriptionOf v = some sub) :
    ∃ sub', ((upgradeUser cfg u plan).run w).2.db.subscriptionOf v = some sub' ∧
      After ((Grant.upgrade u plan).offer w) w.now v sub sub' := by
  simp only [upgradeUser, Grant.offer, exec1_reliable h, bind_eq, atom_bind, Prog.run_act,
    firstOf]
  cases w.db.users.byId u with
  | none => exact ⟨sub, hs, rfl⟩
  | some user =>
    cases supportedPlan plan with
    | none => exact ⟨sub, hs, rfl⟩
    | some p =>
      obtain ⟨row, hrow, hmine, hothers⟩ := upgradeTo_run h user.id p w
      by_cases hv : v = user.id
      · subst hv
        refine ⟨row, hrow, ?_⟩
        simp only [Option.bind_some, Option.map_some, After, if_true]
        exact hmine
      · exact ⟨sub, (hothers v hv).trans hs, by simp [After, hv]⟩

theorem grant_after (h : cfg.Reliable) (g : Grant) (hs : w.db.subscriptionOf v = some sub) :
    ∃ sub', (g.run cfg w).db.subscriptionOf v = some sub' ∧
      After (g.offer w) w.now v sub sub' := by
  cases g with
  | webhook yk obj d =>
    simp only [Grant.run, Grant.offer, dbTransaction_reliable h, atom, run_act, run_done,
      transact_webhookConfirmation h]
    cases paymentByYooKassaID yk w.db with
    | none => exact ⟨sub, hs, rfl⟩
    | some p => exact confirmed_after hs
  | reconcile p d =>
    simp only [Grant.run, Grant.offer, dbTransaction_reliable h, atom, run_act, Prog.run_done,
      transact_reconcileConfirmation h]
    cases w.db.payments.byId p.id with
    | none => exact ⟨sub, hs, rfl⟩
    | some current => exact confirmed_after hs
  | approve id => exact approve_after h id hs
  | free u uuid req app now => exact free_after h u uuid req app now hs
  | upgrade u plan => exact upgrade_after h u plan hs

end Runs

variable {sub : Subscription}

theorem offer_kept_iff (he : now < sub.expiresAt) (hf : sub.plan ≠ .free) (offer : Offer) :
    Kept now sub offer.plan (offer.expiry now sub) ↔ offer.Covers now sub := by
  cases offer with
  | upgrade plan =>
    simp only [Kept, Offer.plan, Offer.expiry, Offer.Covers]
    constructor <;> intro h <;> linarith
  | payment plan hp =>
    by_cases ht : plan = .trial
    · subst ht
      exact kept_trial_iff
    · have hcovers : (Offer.payment plan hp).Covers now sub ↔ plan = sub.plan ∨
          wholeHours now plan sub * hour ≤ maxDuration ∧
            (maxDuration < sub.expiresAt - now → valueAt now sub <
              (wholeHours now plan sub + 1) * hourPrice plan + (priceOf plan).amount) := by
        cases plan with
        | trial => exact absurd rfl ht
        | _ => exact Iff.rfl
      rw [hcovers]
      by_cases hs : plan = sub.plan
      · exact iff_of_true (kept_same hp ht he hs) (.inl hs)
      · rw [or_iff_right hs]
        exact kept_other_iff hp ht he hf hs

theorem kept_unchanged (hf : sub.plan ≠ .free) : Kept now sub sub.plan sub.expiresAt := by
  have hhour := hourPrice_pos hf
  unfold Kept valueAt
  linarith

def paidPlans : List PlanType := [.basic, .basic3M, .vip, .vip3M]

/-- For every user with a running paid subscription: a grant leaves its value exactly when the
user is offered nothing, or something that covers it. -/
theorem grant_keeps_value_iff (h : cfg.Reliable) (g : Grant) {w : World} {v : ℕ}
    {sub : Subscription} (hs : w.db.subscriptionOf v = some sub) (hpaid : sub.plan ∈ paidPlans)
    (he : w.now < sub.expiresAt) :
    (∃ sub', (g.run cfg w).db.subscriptionOf v = some sub' ∧
      Kept w.now sub sub'.plan sub'.expiresAt) ↔
      ∀ offer, g.offer w = some (v, offer) → offer.Covers w.now sub := by
  have hf : sub.plan ≠ .free := by
    intro hfree
    rw [hfree] at hpaid
    exact absurd hpaid (by decide)
  obtain ⟨sub', hs', hafter⟩ := grant_after h g hs
  have hkept : (∃ sub', (g.run cfg w).db.subscriptionOf v = some sub' ∧
      Kept w.now sub sub'.plan sub'.expiresAt) ↔ Kept w.now sub sub'.plan sub'.expiresAt := by
    constructor
    · rintro ⟨s, hs, hk⟩
      obtain rfl := Option.some.inj (hs.symm.trans hs')
      exact hk
    · exact fun hk => ⟨sub', hs', hk⟩
  rw [hkept]
  unfold After at hafter
  cases ho : g.offer w with
  | none =>
    rw [ho] at hafter
    rw [hafter]
    exact iff_of_true (kept_unchanged hf) fun _ h => nomatch h
  | some grant =>
    obtain ⟨u, offer⟩ := grant
    rw [ho] at hafter
    by_cases hv : v = u
    · subst hv
      simp only [if_true] at hafter
      rw [hafter.1, hafter.2, offer_kept_iff he hf]
      constructor
      · intro hc o hsame
        obtain rfl : offer = o := by simpa using hsame
        exact hc
      · exact fun hc => hc offer rfl
    · simp only [if_neg hv] at hafter
      rw [hafter]
      refine iff_of_true (kept_unchanged hf) ?_
      intro o hsame
      have : u = v := congrArg Prod.fst (Option.some.inj hsame)
      exact absurd this.symm hv

instance (now : ℤ) (sub : Subscription) (plan : PlanType) (expiresAt : ℤ) :
    Decidable (Kept now sub plan expiresAt) :=
  inferInstanceAs (Decidable (_ < _))

def vipUntil (days : ℤ) : Subscription := paidUntil .vip (days * day)

def pendingOrder (plan : PlanType) (h : plan ≠ .free) : Payment :=
  { samplePayment 1 plan h with yooKassaID := "pay-1", status := .pending }

def runningWorld (plan : PlanType) (h : plan ≠ .free) : World :=
  .start { Db.empty with
    users := ⟨[⟨7, "a@example.org"⟩], 8, by decide⟩
    subscriptions := ⟨[vipUntil 90], 2, by decide⟩
    payments := ⟨[pendingOrder plan h], 2, by simp [Valid, pendingOrder, samplePayment]⟩ } 0
    (.answering (fun _ => some "succeeded") [])

/-- A trial that is confirmed during a paid period replaces it by three days, and an upgrade to
the same plan replaces it by a month. -/
theorem grants_shorten_subscription :
    (Setup.standard "").Reliable ∧ (vipUntil 90).plan ∈ paidPlans ∧
      (runningWorld .trial (by decide)).db.subscriptionOf 7 = some (vipUntil 90) ∧
      (runningWorld .trial (by decide)).now < (vipUntil 90).expiresAt ∧
      (¬ ∃ sub', ((Grant.webhook "pay-1" [] ⟨"succeeded", "", ""⟩).run (.standard "")
          (runningWorld .trial (by decide))).db.subscriptionOf 7 = some sub' ∧
        Kept 0 (vipUntil 90) sub'.plan sub'.expiresAt) ∧
      ¬ ∃ sub', ((Grant.upgrade 7 "vip").run (.standard "")
          (runningWorld .trial (by decide))).db.subscriptionOf 7 = some sub' ∧
        Kept 0 (vipUntil 90) sub'.plan sub'.expiresAt := by
  refine ⟨Setup.standard_reliable "", by decide, rfl, by decide, ?_, ?_⟩
  · rintro ⟨sub', hs, hk⟩
    obtain rfl : (⟨1, 7, .trial, .active, 3 * day, false, ""⟩ : Subscription) = sub' :=
      Option.some.inj ((show some _ = _ by decide +kernel).trans hs)
    exact absurd hk (by decide +kernel)
  · rintro ⟨sub', hs, hk⟩
    obtain rfl : (⟨1, 7, .vip, .active, 31 * day, false, ""⟩ : Subscription) = sub' :=
      Option.some.inj ((show some _ = _ by decide +kernel).trans hs)
    exact absurd hk (by decide +kernel)

/-- A basic period on top of the same subscription is covered. -/
theorem basic_payment_keeps_vip_value :
    ∃ sub', ((Grant.webhook "pay-1" [] ⟨"succeeded", "", ""⟩).run (.standard "")
        (runningWorld .basic (by decide))).db.subscriptionOf 7 = some sub' ∧
      Kept 0 (vipUntil 90) sub'.plan sub'.expiresAt := by
  refine (grant_keeps_value_iff (Setup.standard_reliable "") _ rfl (by decide) (by decide)).mpr ?_
  intro offer ho
  obtain rfl : Offer.payment .basic (by decide) = offer :=
    congrArg Prod.snd (Option.some.inj ho)
  refine .inr ⟨by decide +kernel, ?_⟩
  intro hlong
  exact absurd hlong (by decide +kernel)

end GrantedValue
