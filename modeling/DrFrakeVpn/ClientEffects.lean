import DrFrakeVpn.RequestEffects

/-! # What customers and the provider do to the table of payments

Orders, webhooks and reconciliations, without the admin and the scheduler. -/
namespace ClientEffects

open SharedPrograms RecordTables GoValues
open BackendModels BackendWorld PaymentHandlers PaymentCreation
open ConfirmationEffects HandlerEffects OrderEffects RequestEffects

variable {cfg : Setup}

def isClient : Request → Bool
  | .webhook _ | .reconcile _ | .create .. => true
  | .approve _ | .renewals _ => false

def clientLabel : Stmt → Bool
  | .fetchPayment _ | .webhookCancel _ | .webhookConfirm _ | .reconcileSelect _
  | .reconcileConfirm _ | .reconcileCancel _ | .createPayment .. => true
  | _ => false

variable {l : Stmt}

theorem clientLabel_of_owns (hr : isClient r) (hl : r.owns l) :
    clientLabel l := by
  cases r with
  | approve | renewals => cases hr
  | webhook | reconcile | create =>
    cases l with
    | fetchPayment | webhookCancel | webhookConfirm | reconcileSelect | reconcileConfirm
    | reconcileCancel | createPayment => rfl
    | _ => cases hl

/-- What every row that `mk` builds has from its order. -/
structure NewRow (u : ℕ) (plan : PlanType) (promo : Option ℕ) (status : PaymentStatus)
    (mk : ℕ → Payment) : Prop where
  id : ∀ i, (mk i).id = i
  userID : ∀ i, (mk i).userID = u
  plan : ∀ i, (mk i).plan = plan
  promoCodeID : ∀ i, (mk i).promoCodeID = promo
  status : ∀ i, (mk i).status = status

inductive Booking (w : World) (l : Stmt) (w' : World) (n : Option Stmt) : Prop where
  | other (hl : order? l = none) (hn : OutsideOrders n) (hp : w'.db.payments = w.db.payments)
      (ha : w'.activations = w.activations)
  | check {u : ℕ} {plan : PlanType} {promo : Option ℕ} {site : CreateSite}
      (hl : l = .createPayment u plan promo site) (hf : Follows u plan promo site n)
      (hc : Checked w u plan promo n site) (hp : w'.db.payments = w.db.payments)
      (ha : w'.activations = w.activations)
  | order {u : ℕ} {plan : PlanType} {promo : Option ℕ} {mk : ℕ → Payment}
      (hl : l = .createPayment u plan promo .store) (hn : n = none)
      (hrow : NewRow u plan promo .pending mk)
      (hp : w.db.payments.insert mk = some w'.db.payments) (ha : w'.activations = w.activations)
  | free {u : ℕ} {plan : PlanType} {promo : Option ℕ} {mk : ℕ → Payment}
      (hl : l = .createPayment u plan promo .freeConfirm) (hn : n = none)
      (hrow : NewRow u plan promo .succeeded mk) (hzero : ∀ i, (mk i).amount = 0)
      (hp : w.db.payments.insert mk = some w'.db.payments)
      (ha : w'.activations = w.activations ++ [⟨w.db.payments.seq, u, plan⟩])
  | settle (p : Payment) (hl : order? l = none) (hn : OutsideOrders n)
      (hm : p ∈ w.db.payments.rows) (hs : p.status ≠ .succeeded)
      (hpaid : w.provider.status p.yooKassaID = some "succeeded")
      (hp : w'.db.payments = w.db.payments.updateId p.id (succeededAt w.now))
      (ha : w'.activations = w.activations ++ [⟨p.id, p.userID, p.plan⟩])
  | cancel (q : Payment → Bool) (hl : order? l = none) (hn : OutsideOrders n)
      (hq : ∀ p ∈ w.db.payments.rows, q p = true →
        w.provider.status p.yooKassaID = some "canceled")
      (hp : w'.db.payments = w.db.payments.update q (setPaymentStatus .cancelled))
      (ha : w'.activations = w.activations)

variable {w : World} {n : Option Stmt} {w' : World}

theorem client_booking (hl : clientLabel l) (he : Effect cfg w l w' n) :
    Booking w l w' n := by
  cases he with
  | approve | charge | chargeLost | extend | renewalStored | expire => cases hl
  | quiet hl hn h => exact .other hl hn h.payments h.activations
  | check hf hc => exact .check rfl hf hc rfl rfl
  | ordered a rest hf => exact .check rfl hf trivial rfl rfl
  | stored ht hid hu hplan hpromo hs => exact .order rfl rfl ⟨hid, hu, hplan, hpromo, hs⟩ ht rfl
  | free ht hid hu hplan hpromo hs hzero =>
    refine .free rfl rfl ⟨hid, hu, hplan, hpromo, hs⟩ hzero (by rwa [freelyConfirmed_payments]) ?_
    rw [freelyConfirmed_activations, hid, hu, hplan]
  | confirm p method hl hn hm hpaid =>
    have horder : order? l = none := by
      rcases hl with rfl | rfl <;> rfl
    by_cases hs : p.status = .succeeded
    · refine .other horder hn ?_ ?_
      · rw [confirmed_payments, if_pos hs]
      · rw [confirmed_activations, if_pos hs]
    · refine .settle p horder hn hm hs hpaid ?_ ?_
      · rw [confirmed_payments, if_neg hs]
      · rw [confirmed_activations, if_neg hs]
  | cancelByEvent yk hn hs =>
    refine .cancel _ rfl hn ?_ rfl rfl
    intro p _ hq
    rw [of_decide_eq_true hq]
    exact hs
  | cancelPending p hn hm hs =>
    refine .cancel _ rfl hn ?_ rfl rfl
    intro r hr hq
    simp only [Bool.and_eq_true, decide_eq_true_eq] at hq
    rw [w.db.payments.id_injective hr hm hq.1]
    exact hs

/-- The provider holds every selected payment that is stored as cancelled for canceled. -/
def CancelledByProvider (sel : Payment → Prop) (w : World) : Prop :=
  ∀ p ∈ w.db.payments.rows, sel p → p.status = .cancelled →
    w.provider.status p.yooKassaID = some "canceled"

variable {sel : Payment → Prop}

theorem cancelledByProvider_step (h : CancelledByProvider sel w) (hk : Keeps w w')
    (hb : Booking w l w' n) : CancelledByProvider sel w' := by
  have hold : ∀ q ∈ w.db.payments.rows, sel q → q.status = .cancelled →
      w'.provider.status q.yooKassaID = some "canceled" :=
    fun q hq hs hc => hk.final _ _ final_canceled (h q hq hs hc)
  have hnew : ∀ mk : ℕ → Payment, (∀ i, (mk i).status ≠ .cancelled) →
      w.db.payments.insert mk = some w'.db.payments → CancelledByProvider sel w' := by
    intro mk hmk ht q hq hs hc
    rw [(w.db.payments.insert_some ht).1] at hq
    rcases List.mem_append.mp hq with hq | hq
    · exact hold q hq hs hc
    · rw [List.mem_singleton.mp hq] at hc
      exact absurd hc (hmk _)
  cases hb with
  | other _ _ hp _ | check _ _ _ hp _ =>
    intro q hq
    rw [hp] at hq
    exact hold q hq
  | order _ _ hrow ht _ => exact hnew _ (fun i => by rw [hrow.status i]; decide) ht
  | free _ _ hrow _ ht _ => exact hnew _ (fun i => by rw [hrow.status i]; decide) ht
  | settle p _ _ _ _ _ hp _ =>
    intro q hq hs hc
    rw [hp] at hq
    obtain ⟨r, hr, rfl⟩ := w.db.payments.mem_update.mp hq
    by_cases hid : Record.id r = p.id
    · rw [if_pos (decide_eq_true hid)] at hc
      cases hc
    · rw [if_neg (by simpa using hid)] at hs hc ⊢
      exact hold r hr hs hc
  | cancel c _ _ hc hp _ =>
    intro q hq hs hstatus
    rw [hp] at hq
    obtain ⟨r, hr, rfl⟩ := w.db.payments.mem_update.mp hq
    by_cases hcr : c r
    · rw [if_pos hcr]
      exact hk.final _ _ final_canceled (hc r hr hcr)
    · rw [if_neg hcr] at hs hstatus ⊢
      exact hold r hr hs hstatus

theorem cancelledByProvider_passes (h : CancelledByProvider sel w) (hp : Passes w w') :
    CancelledByProvider sel w' := by
  intro q hq hs hc
  rw [hp.db] at hq
  exact (Keeps.of_passes hp).final _ _ final_canceled (h q hq hs hc)

theorem pending_of_settle (h : CancelledByProvider sel w) (hm : p ∈ w.db.payments.rows)
    (hp : sel p) (hs : p.status ≠ .succeeded)
    (hpaid : w.provider.status p.yooKassaID = some "succeeded") : p.status = .pending := by
  cases hst : p.status with
  | pending => rfl
  | succeeded => exact absurd hst hs
  | cancelled =>
    have hc := h p hm hp hst
    rw [hpaid] at hc
    exact absurd hc (by decide)

theorem client_label (hr : isClient r) (hl : (r.program cfg).label? = some l) :
    order? l = none ∨ ∃ u plan site, l = .createPayment u plan none site ∧
      (plan = .trial → site = .trialCount) := by
  cases r with
  | approve | renewals => cases hr
  | webhook body =>
    have hown := (webhook_only body).label ((Prog.label_forget (webhook cfg body)).symm.trans hl)
    cases l with
    | createPayment => cases hown
    | _ => exact .inl rfl
  | reconcile u =>
    have hown := (reconcile_only u).label
        ((Prog.label_forget (reconcilePendingUserPayments cfg u)).symm.trans hl)
    cases l with
    | createPayment => cases hown
    | _ => exact .inl rfl
  | create u uuid req =>
    have hlabel := (Prog.label_forget (createPayment cfg u uuid req)).symm.trans hl
    rcases createPayment_label u uuid req with hnone | ⟨plan, site, hsome, ht⟩
    · exact absurd (hnone.symm.trans hlabel) nofun
    · cases hsome.symm.trans hlabel
      exact .inr ⟨u, plan, site, rfl, ht⟩

/-- At the start no request has a code yet or is past the check of a trial. -/
theorem countP_start {requests q} (hclient : ∀ r ∈ requests, isClient r)
    (hout : ∀ n, OutsideOrders n → q n = false)
    (horder : ∀ u plan site, (plan = .trial → site = .trialCount) →
      ¬ q (some (.createPayment u plan none site))) (w : World) :
    (pool cfg requests w).labels.countP q = 0 := by
  rw [List.countP_eq_zero]
  intro n hn
  simp only [pool, Config.labels, List.map_map, List.mem_map, Function.comp_apply] at hn
  obtain ⟨r, hr, rfl⟩ := hn
  cases hl : (r.program cfg).label? with
  | none =>
    have hnone : OutsideOrders none := by
      intro l hl
      cases hl
    simp [hout none hnone]
  | some l =>
    rcases client_label (hclient r hr) hl with ho | ⟨u, plan, site, rfl, htrial⟩
    · simp [hout _ (outsideOrders_some ho)]
    · exact horder u plan site htrial

def createdAnswer (id : String) : HttpResult :=
  .response 200 (some (.obj [("id", .str id), ("status", .str "pending")]))

def acceptingTwo : Provider :=
  .answering (fun _ => none) [createdAnswer "pay-1", createdAnswer "pay-2"]

def acceptedOne : Provider :=
  acceptingTwo.register (createdAnswer "pay-1") [createdAnswer "pay-2"]

def acceptedTwo : Provider := acceptedOne.register (createdAnswer "pay-2") []

def paidOne : Provider :=
  .answering (fun id => if id = "pay-1" then some "succeeded" else none) [createdAnswer "pay-2"]

def paidTwo : Provider :=
  .answering (fun id => if id = "pay-1" ∨ id = "pay-2" then some "succeeded" else none) []

def succeededEvent (id : String) : Request :=
  .webhook (some (.obj [("event", .str "payment.succeeded"), ("object", .obj [("id", .str id)])]))

theorem acceptedOne_status {id st} (h : acceptedOne.status id = some st) :
    id = "pay-1" ∧ st = "pending" := by
  by_cases h1 : id = "pay-1"
  · subst h1
    exact ⟨rfl, (Option.some.inj h).symm⟩
  · simp [acceptedOne, acceptingTwo, Provider.register, newPaymentOf, createdAnswer,
      Provider.answering, lookup, h1] at h

theorem acceptedTwo_status {id st} (h : acceptedTwo.status id = some st) :
    (id = "pay-1" ∨ id = "pay-2") ∧ st = "pending" := by
  by_cases h2 : id = "pay-2"
  · subst h2
    exact ⟨.inr rfl, (Option.some.inj h).symm⟩
  · have hone : acceptedOne.status id = some st := by
      simpa [acceptedTwo, Provider.register, newPaymentOf, createdAnswer, lookup, h2] using h
    obtain ⟨h1, hst⟩ := acceptedOne_status hone
    exact ⟨.inl h1, hst⟩

theorem passes_of_pending (h : ∀ id st, w.provider.status id = some st → st = "pending" ∧
      provider.status id = some "succeeded") : Passes w { w with provider := provider } where
  db := rfl
  remote := rfl
  activations := rfl
  charges := rfl
  now := le_rfl
  status id st hst := by
    obtain ⟨rfl, hpaid⟩ := h id st hst
    refine .inr ⟨?_, "succeeded", hpaid⟩
    intro hfinal
    rcases hfinal with hs | hs
    · exact absurd hs (by decide)
    · exact absurd hs (by decide)

theorem passes_of_acceptedOne (h : w.provider = acceptedOne) :
    Passes w { w with provider := paidOne } := by
  refine passes_of_pending fun id st hst => ?_
  rw [h] at hst
  obtain ⟨hid, rfl⟩ := acceptedOne_status hst
  exact ⟨rfl, if_pos hid⟩

theorem passes_of_acceptedTwo (h : w.provider = acceptedTwo) :
    Passes w { w with provider := paidTwo } := by
  refine passes_of_pending fun id st hst => ?_
  rw [h] at hst
  obtain ⟨hid, rfl⟩ := acceptedTwo_status hst
  exact ⟨rfl, if_pos hid⟩

end ClientEffects
