import DrFrakeVpn.RequestEffects
import DrFrakeVpn.WebhookIntegrity

/-! # Confirming a payment once, and keeping it confirmed -/
namespace PaymentConfirmation

open SharedPrograms RecordTables GoValues
open BackendModels BackendWorld PaymentHandlers
open ConfirmationEffects RenewalScheduler HandlerEffects SchedulerEffects RequestEffects
open WebhookIntegrity

variable {cfg : Setup}

/-- Along every interleaving of the requests the payment is activated at most once. -/
def ActivatedAtMostOnce (cfg : Setup) (allow : Guard World Stmt) (requests : List Request)
    (w : World) (paymentID : ℕ) : Prop :=
  ∀ c, Execution Passes allow (pool cfg requests w) c → activationsOf paymentID c.shared ≤ 1

/-- The transaction of a manual approval starts only while the payment is not confirmed.
Webhook and reconciliation make this check themselves, inside their transactions. -/
def ApprovalRechecked (paymentID : ℕ) : Guard World Stmt := fun l _ w =>
  l = .approveConfirm paymentID → w.db.paymentStatus paymentID ≠ some .succeeded

structure SettledOnce (p : Payment) (w : World) : Prop where
  row : ∃ q, w.db.payments.byId p.id = some q ∧ SameOrder p q ∧
    (q.status ≠ .succeeded → activationsOf p.id w = 0)
  paid : w.provider.status p.yooKassaID = some "succeeded"
  once : activationsOf p.id w ≤ 1

variable {w : World} {p : Payment} {w' : World} {l : Stmt} {n : Option Stmt}

theorem settledOnce_step (h : SettledOnce p w) (ha : ApprovalRechecked p.id l ls w)
    (he : Effect cfg w l w' n) : SettledOnce p w' := by
  obtain ⟨⟨q, hq, hpq, hzero⟩, hpaid, honce⟩ := h
  obtain ⟨r, hr, hqr, hchange⟩ := effect_row he hq
  have hpaid' := he.keeps.final _ _ final_succeeded hpaid
  have hrow : ∀ hz : r.status ≠ .succeeded → activationsOf p.id w' = 0,
      ∃ q, w'.db.payments.byId p.id = some q ∧ SameOrder p q ∧
        (q.status ≠ .succeeded → activationsOf p.id w' = 0) :=
    fun hz => ⟨r, hr, hpq.trans hqr, hz⟩
  cases hchange with
  | kept hs hn =>
    exact ⟨hrow (by rw [hn, hs]; exact hzero), hpaid', by omega⟩
  | confirmed hp hs hn =>
    have hz := hzero hp
    exact ⟨hrow fun h => absurd hs h, hpaid', by omega⟩
  | approved hl hs hn =>
    -- The guard stands in for the check that the transaction does not make.
    rw [hpq.id] at hl
    have hstatus : q.status ≠ .succeeded := by
      intro hsucc
      exact ha hl (by rw [Db.paymentStatus, hq, Option.map_some, hsucc])
    have hz := hzero hstatus
    exact ⟨hrow fun h => absurd hs h, hpaid', by omega⟩
  | cancelled _ hc _ _ =>
    rw [hpq.yooKassaID, hpaid] at hc
    exact absurd hc (by decide)

theorem settledOnce_passes (h : SettledOnce p w) (hp : Passes w w') : SettledOnce p w' := by
  have hact : activationsOf p.id w' = activationsOf p.id w := by
    rw [activationsOf, activationsOf, hp.activations]
  obtain ⟨hrow, hpaid, honce⟩ := h
  refine ⟨?_, (Keeps.of_passes hp).final _ _ final_succeeded hpaid, by rwa [hact]⟩
  rw [hp.db, hact]
  exact hrow

/-- If no manual approval of the payment commits on a payment that is confirmed already,
then no interleaving of any number of requests activates it twice. -/
theorem activated_at_most_once (h : cfg.Reliable) (requests : List Request) {w : World}
    {p : Payment} (hp : p ∈ w.db.payments.rows)
    (hpaid : w.provider.status p.yooKassaID = some "succeeded")
    (hnone : activationsOf p.id w = 0) :
    ActivatedAtMostOnce cfg (ApprovalRechecked p.id) requests w p.id := by
  intro c hc
  have hstart : SettledOnce p w := by
    refine ⟨⟨p, ?_, .refl p, fun _ => hnone⟩, hpaid, by omega⟩
    exact (w.db.payments.byId_some_iff).mpr ⟨hp, rfl⟩
  exact (pool_invariant h
    (fun _ _ _ _ => trivial) (fun ls i w l w' n _ hJ _ ha he => settledOnce_step hJ ha he)
    (fun _ _ _ hJ hp => settledOnce_passes hJ hp) hstart hc).once

def approvalAndWebhook : List Request :=
  [.approve 1, .webhook (eventBody "payment.succeeded" "pay-1")]

theorem approval_repeats_activation : (Setup.standard "").Reliable ∧
    pendingPayment ∈ paidWorld.db.payments.rows ∧
    paidWorld.provider.status "pay-1" = some "succeeded" ∧ activationsOf 1 paidWorld = 0 ∧
    ¬ ActivatedAtMostOnce (.standard "") Unguarded approvalAndWebhook paidWorld 1 := by
  refine ⟨Setup.standard_reliable "", by decide, rfl, rfl, ?_⟩
  intro h
  have he : Execution Passes Unguarded (pool (.standard "") approvalAndWebhook paidWorld) _ :=
    runSchedule_execution _ [0, 0, 1, 1, 0] (schedule_unguarded _ _)
  exact absurd (h _ he) (by decide)

theorem rechecked_race_activates_once :
    ActivatedAtMostOnce (.standard "") (ApprovalRechecked 1) approvalAndWebhook paidWorld 1 ∧
      ∃ c, Execution Passes (ApprovalRechecked 1)
        (pool (.standard "") approvalAndWebhook paidWorld) c ∧ activationsOf 1 c.shared = 1 := by
  refine ⟨activated_at_most_once (Setup.standard_reliable "") approvalAndWebhook
    (p := pendingPayment) (by decide) rfl rfl, _, runSchedule_execution _ [1, 1] ?_, rfl⟩
  refine ⟨?_, ?_, trivial⟩
  · rintro l hl rfl
    exact absurd hl (by decide)
  · rintro l hl rfl
    exact absurd hl (by decide)

/-- One turn: a call that runs to its end, or time that passes and leaves the given world. -/
inductive Turn where
  | webhook (body : Option Json)
  | reconcile (userID : ℕ)
  | approve (paymentID : ℕ)
  | renew
  | pass (w : World)

def Turn.next (cfg : Setup) (w : World) : Turn → World
  | .webhook body => ((PaymentHandlers.webhook cfg body).run w).2
  | .reconcile userID => ((reconcilePendingUserPayments cfg userID).run w).2
  | .approve paymentID => ((approvePayment cfg paymentID).run w).2
  | .renew => ((processAutoRenewals cfg).run w).2
  | .pass w' => w'

def worldAfter (cfg : Setup) (w : World) (turns : List Turn) : World :=
  turns.foldl (Turn.next cfg) w

def Lawful (cfg : Setup) : World → List Turn → Prop
  | _, [] => True
  | w, turn :: turns =>
    (∀ w', turn = .pass w' → Passes w w') ∧ Lawful cfg (turn.next cfg w) turns

def ConfirmedIn (id : ℕ) (w : World) : Prop := w.db.paymentStatus id = some .succeeded

instance (id : ℕ) (w : World) : Decidable (ConfirmedIn id w) := inferInstanceAs (Decidable (_ = _))

/-- Once confirmed, the payment is confirmed after every later turn. -/
def StaysConfirmed (cfg : Setup) (id : ℕ) (w : World) (turns : List Turn) : Prop :=
  ∀ before during after, turns = before ++ during ++ after →
    ConfirmedIn id (worldAfter cfg w before) → ConfirmedIn id (worldAfter cfg w (before ++ during))

/-- A webhook `payment.canceled` for the payment whose check with the provider succeeds. -/
def CancelsVerified (yk : String) (w : World) : Turn → Prop
  | .webhook body => header body = some ("payment.canceled", yk) ∧
      ∃ d, detailsOf (w.provider.reply yk) = some d ∧ d.status = "canceled"
  | _ => False

/-- No verified cancellation arrives while the payment is stored as confirmed. -/
def NoLateCancel (cfg : Setup) (id : ℕ) : World → List Turn → Prop
  | _, [] => True
  | w, turn :: turns =>
    (∀ p, w.db.payments.byId id = some p → p.status = .succeeded →
      ¬ CancelsVerified p.yooKassaID w turn) ∧ NoLateCancel cfg id (turn.next cfg w) turns

variable {id : ℕ}

theorem confirmedIn_iff (hp : w.db.payments.byId id = some p) :
    ConfirmedIn id w ↔ p.status = .succeeded := by
  simp [ConfirmedIn, Db.paymentStatus, hp]

theorem confirmedIn_row (h : ConfirmedIn id w) :
    ∃ p, w.db.payments.byId id = some p ∧ p.status = .succeeded := by
  simpa [ConfirmedIn, Db.paymentStatus] using h

def NoCancelEvent (l : Stmt) : Prop := ∀ yk, l ≠ .webhookCancel yk

theorem confirmedIn_effect (hl : NoCancelEvent l) (he : Effect cfg w l w' n)
    (h : ConfirmedIn id w) : ConfirmedIn id w' := by
  obtain ⟨p, hp, hs⟩ := confirmedIn_row h
  obtain ⟨q, hq, _, hchange⟩ := effect_row he hp
  rw [confirmedIn_iff hq]
  cases hchange with
  | kept hk _ => rw [hk, hs]
  | confirmed _ hk _ => exact hk
  | approved _ hk _ => exact hk
  | cancelled hc _ _ _ =>
    rcases hc with hc | hc
    · exact absurd hc (hl _)
    · rw [hs] at hc
      cases hc

theorem noCancelEvent_of_owns {r : Request} (hr : ∀ body, r ≠ .webhook body)
    (hl : r.owns l) : NoCancelEvent l := by
  rintro yk rfl
  cases r with
  | webhook body => exact hr body rfl
  | _ => cases hl

theorem confirmedIn_run {α : Type} {p : Handler α} (r : Request) (hr : ∀ body, r ≠ .webhook body)
    (hS : p.Only fun l => r.owns l) (hp : p.Obeys Keeps (fun _ _ => True) (Effect cfg) w)
    (h : ConfirmedIn id w) : ConfirmedIn id (p.run w).2 :=
  hp.run_invariant (I := ConfirmedIn id) Keeps.refl (fun _ _ _ => trivial)
    (fun _ _ _ _ hl he hI => confirmedIn_effect (noCancelEvent_of_owns hr hl) he hI) hS h

theorem cancelledWhere_confirmed (yk : String) (hp : w.db.payments.byId id = some p)
    (hs : p.status = .succeeded) :
    ConfirmedIn id (cancelledWhere (fun q => q.yooKassaID = yk) w) ↔ yk ≠ p.yooKassaID := by
  have hq : (cancelledWhere (fun q => q.yooKassaID = yk) w).db.payments.byId id =
      some (if p.yooKassaID = yk then (setPaymentStatus .cancelled).apply p else p) := by
    simp [cancelledWhere, updatePayments, Table.byId_update, hp]
  rw [confirmedIn_iff hq]
  by_cases hyk : p.yooKassaID = yk
  · simp [hyk, setPaymentStatus]
  · simp [hyk, hs, Ne.symm hyk]

theorem confirmed_keepsConfirmed (h : ConfirmedIn id w) :
    ConfirmedIn id (confirmed cfg p method w) := by
  obtain ⟨q, hq, hs⟩ := confirmedIn_row h
  unfold ConfirmedIn Db.paymentStatus
  rw [confirmed_payments]
  split
  · rw [hq, Option.map_some, hs]
  · rw [Table.byId_updateId, hq]
    split
    · rfl
    · rw [Option.map_some, hs]

theorem webhook_keeps_iff (h : cfg.Reliable) (body : Option Json)
    (hp : w.db.payments.byId id = some p) (hs : p.status = .succeeded) :
    ConfirmedIn id (Turn.next cfg w (.webhook body)) ↔
      ¬ CancelsVerified p.yooKassaID w (.webhook body) := by
  have hconf : ConfirmedIn id w := (confirmedIn_iff hp).mpr hs
  rw [Turn.next, webhook_run h, CancelsVerified, afterWebhook]
  cases header body with
  | none => simpa using hconf
  | some eventAndId =>
    obtain ⟨event, yk⟩ := eventAndId
    by_cases hc : event = "payment.canceled"
    · subst hc
      by_cases hyk : yk = p.yooKassaID
      · subst hyk
        simp only [if_true, afterCanceled, true_and]
        cases detailsOf (w.provider.reply p.yooKassaID) with
        | none => simpa using hconf
        | some d =>
          by_cases hd : d.status = "canceled"
          · simp [hd, cancelledWhere_confirmed p.yooKassaID hp hs]
          · simpa [hd] using hconf
      · refine iff_of_true ?_ (by simp [hyk])
        simp only [if_true, afterCanceled]
        split
        · exact hconf
        · split
          · exact (cancelledWhere_confirmed yk hp hs).mpr hyk
          · exact hconf
    · refine iff_of_true ?_ (by simp [hc])
      simp only [hc, if_false, afterSucceeded]
      split
      · split
        · exact hconf
        split
        · split
          · exact hconf
          · exact confirmed_keepsConfirmed hconf
        · exact hconf
      · exact hconf

theorem turn_keeps_iff (h : cfg.Reliable) (hlaw : ∀ w', turn = .pass w' → Passes w w')
    (hp : w.db.payments.byId id = some p) (hs : p.status = .succeeded) :
    ConfirmedIn id (turn.next cfg w) ↔ ¬ CancelsVerified p.yooKassaID w turn := by
  have hconf : ConfirmedIn id w := (confirmedIn_iff hp).mpr hs
  cases turn with
  | webhook body => exact webhook_keeps_iff h body hp hs
  | reconcile u =>
    refine iff_of_true ?_ (fun hc => hc)
    exact confirmedIn_run (.reconcile u) nofun (reconcile_only u)
      (reconcilePendingUserPayments_obeys h u w).obeys hconf
  | approve i =>
    refine iff_of_true ?_ (fun hc => hc)
    exact confirmedIn_run (.approve i) nofun (approvePayment_only i)
      (approvePayment_obeys h i w).obeys hconf
  | renew =>
    refine iff_of_true ?_ (fun hc => hc)
    exact confirmedIn_run (.renewals 1) nofun maintains_processAutoRenewals.only
      (maintains_processAutoRenewals.obeys w) hconf
  | pass w' =>
    refine iff_of_true ?_ (fun hc => hc)
    rw [Turn.next, ConfirmedIn, (hlaw w' rfl).db]
    exact hconf

theorem staysConfirmed_cons :
    StaysConfirmed cfg id w (turn :: turns) ↔
      (ConfirmedIn id w → ConfirmedIn id (turn.next cfg w)) ∧
        StaysConfirmed cfg id (turn.next cfg w) turns := by
  constructor
  · intro hstay
    refine ⟨hstay [] [turn] turns rfl, ?_⟩
    intro before during after he
    exact hstay (turn :: before) during after (by rw [he]; rfl)
  · rintro ⟨hfirst, hrest⟩ before during after he hconf
    cases before with
    | nil =>
      cases during with
      | nil => exact hconf
      | cons turn' during =>
        cases he
        exact hrest [] during after rfl (hfirst hconf)
    | cons turn' before =>
      cases he
      exact hrest before during after rfl hconf

/-- Over every run, a confirmed payment stays confirmed exactly if no verified
cancellation is handled for it while it is stored as confirmed. -/
theorem confirmed_stays_iff (h : cfg.Reliable) (id : ℕ) (turns : List Turn) {w : World}
    (hlaw : Lawful cfg w turns) :
    StaysConfirmed cfg id w turns ↔ NoLateCancel cfg id w turns := by
  induction turns generalizing w with
  | nil =>
    refine iff_of_true ?_ trivial
    intro before during after he hconf
    have hnil : before = [] ∧ during = [] := by simp_all
    rwa [hnil.2, List.append_nil]
  | cons turn turns ih =>
    rw [staysConfirmed_cons, NoLateCancel, ih hlaw.2]
    refine and_congr_left fun _ => ?_
    constructor
    · intro hkeep p hp hs
      exact (turn_keeps_iff h hlaw.1 hp hs).mp (hkeep ((confirmedIn_iff hp).mpr hs))
    · intro hno hconf
      obtain ⟨p, hp, hs⟩ := confirmedIn_row hconf
      exact (turn_keeps_iff h hlaw.1 hp hs).mpr (hno p hp hs)

def undecidedWorld : World :=
  .start onePayment 0 (.answering (fun id => if id = "pay-1" then some "pending" else none) [])

def givenUp : World :=
  { (((approvePayment (.standard "") 1).run undecidedWorld).2) with
    provider := .answering (fun id => if id = "pay-1" then some "canceled" else none) [] }

theorem givenUp_passes :
    Passes ((approvePayment (.standard "") 1).run undecidedWorld).2 givenUp := by
  refine ⟨rfl, rfl, rfl, rfl, le_refl _, ?_⟩
  intro id st hs
  change (if id = "pay-1" then some "pending" else none) = some st at hs
  split at hs
  · next hid =>
    cases hs
    exact .inr ⟨by unfold Final; decide, "canceled", if_pos hid⟩
  · cases hs

def approvedThenCancelled : List Turn :=
  [.approve 1, .pass givenUp, .webhook (eventBody "payment.canceled" "pay-1")]

theorem cancellation_unconfirms_payment :
    (Setup.standard "").Reliable ∧ Lawful (.standard "") undecidedWorld approvedThenCancelled ∧
      ¬ StaysConfirmed (.standard "") 1 undecidedWorld approvedThenCancelled := by
  refine ⟨Setup.standard_reliable "", ⟨?_, ?_, ?_, trivial⟩, ?_⟩
  · rintro w' ⟨⟩
  · rintro w' ⟨⟩
    exact givenUp_passes
  · rintro w' ⟨⟩
  · intro hstay
    have hlate := hstay [.approve 1]
      [.pass givenUp, .webhook (eventBody "payment.canceled" "pay-1")] [] rfl (by decide)
    exact absurd hlate (by decide)

def approvedThenRenewed : List Turn := [.approve 1, .pass givenUp, .renew]

theorem approvedThenRenewed_lawful : Lawful (.standard "") undecidedWorld approvedThenRenewed := by
  refine ⟨?_, ?_, ?_, trivial⟩
  · rintro w' ⟨⟩
  · rintro w' ⟨⟩
    exact givenUp_passes
  · rintro w' ⟨⟩

theorem approved_payment_stays :
    ConfirmedIn 1 (worldAfter (.standard "") undecidedWorld [.approve 1]) ∧
      StaysConfirmed (.standard "") 1 undecidedWorld approvedThenRenewed := by
  refine ⟨by decide, ?_⟩
  rw [confirmed_stays_iff (Setup.standard_reliable "") 1 _ approvedThenRenewed_lawful]
  exact ⟨fun _ _ _ hc => hc, fun _ _ _ hc => hc, fun _ _ _ hc => hc, trivial⟩

end PaymentConfirmation
