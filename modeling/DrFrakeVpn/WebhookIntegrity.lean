import DrFrakeVpn.HandlerEffects

/-! # What a webhook does, and what its unauthenticated body can decide -/
namespace WebhookIntegrity

open SharedPrograms GoValues
open BackendModels BackendWorld SubscriptionActivation PaymentHandlers
open ConfirmationEffects HandlerEffects

variable {cfg : Setup}

/-- The part of a body that says which event is reported for which payment. -/
def header (body : Option Json) : Option (String × String) :=
  (bindMap body).map fun event => (asString (lookup event "event"),
    asString (lookup (asMap (lookup event "object")) "id"))

def objectOf (body : Option Json) : List (String × Json) :=
  asMap (lookup ((bindMap body).getD []) "object")

def afterCanceled (w : World) (yk : String) : World :=
  match detailsOf (w.provider.reply yk) with
  | none => w
  | some d =>
    if d.status = "canceled" then cancelledWhere (fun p => p.yooKassaID = yk) w else w

def afterSucceeded (cfg : Setup) (w : World) (obj : List (String × Json)) (yk : String) : World :=
  match detailsOf (w.provider.reply yk) with
  | none => w
  | some d =>
    if d.status = "succeeded" then
      match paymentByYooKassaID yk w.db with
      | none => w
      | some p => confirmed cfg p (chosenMethod obj d) w
    else w

def afterWebhook (cfg : Setup) (w : World) (body : Option Json) : World :=
  match header body with
  | none => w
  | some (event, yk) =>
    if event = "payment.canceled" then afterCanceled w yk
    else if event = "payment.succeeded" then afterSucceeded cfg w (objectOf body) yk
    else w

theorem webhook_run (h : cfg.Reliable) :
    ((webhook cfg body).run w).2 = afterWebhook cfg w body := by
  unfold webhook afterWebhook header objectOf
  cases bindMap body with
  | none => rfl
  | some event =>
    simp only [Option.map_some, Option.getD_some, fetchYooKassaPaymentDetails, exec1_reliable h,
      dbTransaction_reliable h, Prog.bind_eq, Prog.atom_bind]
    generalize asString (lookup (asMap (lookup event "object")) "id") = yk
    by_cases hc : asString (lookup event "event") = "payment.canceled"
    · simp only [hc, if_true, Prog.run_act, afterCanceled]
      cases detailsOf (w.provider.reply yk) with
      | none => rfl
      | some d =>
        by_cases hs : d.status = "canceled"
        · simp only [hs, ne_eq, not_true_eq_false, if_false, if_true]
          rfl
        · simp only [hs, ne_eq, not_false_eq_true, if_true, if_false]
          rfl
    · by_cases hev : asString (lookup event "event") = "payment.succeeded"
      · have hne : ¬ "payment.succeeded" = "payment.canceled" := by decide
        simp only [hev, hne, if_false, ne_eq, not_true_eq_false, if_true, Prog.run_act,
          afterSucceeded]
        cases detailsOf (w.provider.reply yk) with
        | none => rfl
        | some d =>
          by_cases hs : d.status = "succeeded"
          · simp only [hs, not_true_eq_false, if_false, if_true, Prog.run_act,
              transact_webhookConfirmation h]
            cases paymentByYooKassaID yk w.db <;> rfl
          · simp only [hs, not_false_eq_true, if_true, if_false]
            rfl
      · simp only [hc, hev, if_false, ne_eq, not_false_eq_true, if_true]
        rfl

/-- Two methods leave the same row: they are equal, or the plan is the trial and one of them
is the stored method while the other is none. -/
def SameRow (p : Payment) (db : Db) (m₁ m₂ : String) : Prop :=
  m₁ = m₂ ∨ p.plan = .trial ∧ ∃ sub, db.subscriptionOf p.userID = some sub ∧
    (m₁ = "" ∧ m₂ = sub.paymentMethodID ∨ m₂ = "" ∧ m₁ = sub.paymentMethodID)

theorem activatedRow_eq_iff (plan : PlanType) (expiry : ℤ) (sub : Subscription)
    (m₁ m₂ : String) : (activatedRow plan m₁ expiry).apply sub =
      (activatedRow plan m₂ expiry).apply sub ↔ m₁ = m₂ ∨ plan = .trial ∧
        (m₁ = "" ∧ m₂ = sub.paymentMethodID ∨ m₂ = "" ∧ m₁ = sub.paymentMethodID) := by
  simp only [activatedRow, Subscription.mk.injEq, true_and]
  by_cases h₁ : m₁ = ""
  · by_cases h₂ : m₂ = ""
    · simp [h₁, h₂]
    have h₂' : ¬ "" = m₂ := fun e => h₂ e.symm
    have hflip : (sub.paymentMethodID = m₂) = (m₂ = sub.paymentMethodID) := propext eq_comm
    by_cases hp : plan = .trial
    · simp [h₁, h₂, hflip]
    · simp [h₁, h₂, hp]
  · by_cases h₂ : m₂ = ""
    · by_cases hp : plan = .trial
      · simp [h₁, h₂]
      · simp [h₁, h₂]
    · simp [h₁, h₂]

theorem grantedRow_eq_iff (now : ℤ) :
    grantedRow now p m₁ db = grantedRow now p m₂ db ↔ SameRow p db m₁ m₂ := by
  unfold grantedRow SameRow
  cases hs : db.subscriptionOf p.userID with
  | none =>
    constructor
    · intro he
      exact .inl (congrArg Subscription.paymentMethodID he)
    · rintro (rfl | ⟨_, sub, hsub, _⟩)
      · rfl
      · cases hsub
  | some sub =>
    simp [activatedRow_eq_iff, Option.some.injEq]

theorem activatedDb_eq_iff (now : ℤ) (p : Payment) (db : Db) (m₁ m₂ : String) :
    activatedDb now p m₁ db = activatedDb now p m₂ db ↔ SameRow p db m₁ m₂ := by
  rw [← grantedRow_eq_iff now]
  constructor
  · intro he
    have hrow := congrArg (fun db => db.subscriptionOf p.userID) he
    simpa [activatedDb_subscriptionOf] using hrow
  · exact activatedDb_congr

theorem confirmed_db_eq_iff (hp : p.status ≠ .succeeded) (w : World) (m₁ m₂ : String) :
    (confirmed cfg p m₁ w).db = (confirmed cfg p m₂ w).db ↔
      SameRow p w.db (keptMethod cfg m₁) (keptMethod cfg m₂) := by
  have hsame := activatedDb_eq_iff w.now ((succeededAt w.now).apply p) (marked p w).db
    (keptMethod cfg m₁) (keptMethod cfg m₂)
  have hrow : SameRow ((succeededAt w.now).apply p) (marked p w).db (keptMethod cfg m₁)
      (keptMethod cfg m₂) ↔ SameRow p w.db (keptMethod cfg m₁) (keptMethod cfg m₂) := Iff.rfl
  rw [← hrow, ← hsame]
  unfold confirmed
  simp only [hp, if_false]
  constructor
  · intro he
    have hsubs := congrArg Db.subscriptions he
    rw [promoMarked_subscriptions, promoMarked_subscriptions] at hsubs
    refine activatedDb_congr ?_
    have hof := congrArg (fun t => ({ w.db with subscriptions := t } : Db).subscriptionOf p.userID)
      hsubs
    have hgranted := fun m => (activatedDb_subscriptionOf w.now ((succeededAt w.now).apply p) m
      (marked p w).db p.userID).trans (if_pos rfl)
    exact Option.some.inj ((hgranted _).symm.trans (hof.trans (hgranted _)))
  · intro he
    unfold activated
    rw [show (marked p w).now = w.now from rfl, he]

/-- The saved methods that two bodies offer make no difference to the world `w`: the event
does not lead to an activation, recurring payments are off, or the methods, each completed
by the fetched one, leave the same row. -/
def MethodsAgree (cfg : Setup) (w : World) (obj₁ obj₂ : List (String × Json)) (yk : String) :
    Prop :=
  ∀ d p, detailsOf (w.provider.reply yk) = some d → d.status = "succeeded" →
    paymentByYooKassaID yk w.db = some p → p.status ≠ .succeeded →
      cfg.recurringPaymentsEnabled = true →
        SameRow p w.db (chosenMethod obj₁ d) (chosenMethod obj₂ d)

theorem afterSucceeded_db_eq_iff :
    (afterSucceeded cfg w obj₁ yk).db = (afterSucceeded cfg w obj₂ yk).db ↔
      MethodsAgree cfg w obj₁ obj₂ yk := by
  unfold afterSucceeded MethodsAgree
  cases hd : detailsOf (w.provider.reply yk) with
  | none => simp
  | some d =>
    by_cases hs : d.status = "succeeded"
    · cases hp : paymentByYooKassaID yk w.db with
      | none => simp
      | some p =>
        by_cases hdone : p.status = .succeeded
        · simp [confirmed, hdone]
        · by_cases hrec : cfg.recurringPaymentsEnabled
          · simp [hs, hdone, confirmed_db_eq_iff hdone, keptMethod, hrec]
          · simp [hs, confirmed_db_eq_iff hdone, keptMethod, hrec, SameRow]
    · simp only [hs, if_false, true_iff]
      rintro d' p ⟨⟩ hs'
      exact absurd hs' hs

/-- Two bodies with the same event and payment leave the same database exactly if the event
is no confirmation or the saved methods they offer make no difference. -/
theorem webhook_db_eq_iff (h : cfg.Reliable) {b₁ b₂ : Option Json} (hh : header b₁ = header b₂)
    (w : World) : ((webhook cfg b₁).run w).2.db = ((webhook cfg b₂).run w).2.db ↔
      ∀ yk, header b₁ = some ("payment.succeeded", yk) →
        MethodsAgree cfg w (objectOf b₁) (objectOf b₂) yk := by
  rw [webhook_run h, webhook_run h]
  unfold afterWebhook
  rw [← hh]
  cases header b₁ with
  | none => simp
  | some eventAndId =>
    obtain ⟨event, yk⟩ := eventAndId
    by_cases hc : event = "payment.canceled"
    · simp [hc]
    · by_cases hs : event = "payment.succeeded"
      · simp [hs, afterSucceeded_db_eq_iff]
      · simp [hs]

def pendingPayment : Payment where
  id := 1
  createdAt := 0
  userID := 7
  yooKassaID := "pay-1"
  amount := 199
  originalAmount := 199
  discountAmount := 0
  currency := "RUB"
  status := .pending
  plan := .basic
  confirmURL := ""
  confirmedAt := none
  promoCodeID := none
  plan_priced := PlanType.basic_ne_free

def onePayment : Db := { Db.empty with payments := ⟨[pendingPayment], 2, by decide⟩ }

def paidWorld : World :=
  .start onePayment 0 (.answering (fun id => if id = "pay-1" then some "succeeded" else none) [])

def bodyWith (fields : List (String × Json)) (event id : String) : Option Json :=
  some (.obj [("event", .str event), ("object", .obj (("id", .str id) :: fields))])

def eventBody : String → String → Option Json := bodyWith []

def forgedBody : Option Json :=
  bodyWith [("payment_method", .obj [("saved", .bool true), ("id", .str "card-x")])]
    "payment.succeeded" "pay-1"

theorem forged_method_is_stored : (Setup.standard "1").Reliable ∧
    header (eventBody "payment.succeeded" "pay-1") = header forgedBody ∧
      ((webhook (.standard "1") (eventBody "payment.succeeded" "pay-1")).run paidWorld).2.db ≠
        ((webhook (.standard "1") forgedBody).run paidWorld).2.db := by
  refine ⟨Setup.standard_reliable "1", rfl, ?_⟩
  intro he
  have hmethod := congrArg (fun db => (db.subscriptionOf 7).map (·.paymentMethodID)) he
  exact absurd hmethod (by decide)

/-- Other fields of the object change nothing. -/
theorem amount_in_body_is_ignored :
    ((webhook (.standard "1") (eventBody "payment.succeeded" "pay-1")).run paidWorld).2.db =
      ((webhook (.standard "1") (bodyWith [("amount", .num 1)] "payment.succeeded" "pay-1")).run
        paidWorld).2.db := by
  refine (webhook_db_eq_iff (Setup.standard_reliable "1") rfl paidWorld).mpr ?_
  intro yk _ d p _ _ _ _ _
  exact .inl rfl

end WebhookIntegrity
