import DrFrakeVpn.AutoRenewal
import DrFrakeVpn.SettlementBooks

/-! # Records and access when statements fail

A webhook drops the error of the statement that marks the payment, and a renewal charge drops the
errors of both its writes, so each of them can keep one half. -/
namespace PaymentFaults

open SharedPrograms RecordTables FaultyTransactions GoValues List Prog
open BackendModels BackendWorld SubscriptionActivation PaymentHandlers RenewalScheduler
open ConfirmationEffects HandlerEffects SubscriptionValue AutoRenewal SettlementBooks

inductive Procedure where
  | webhook (body : Option Json)
  | reconcile (userID : ℕ)
  | charge (sub : Subscription)

section Procedures

variable (cfg : Setup)

def Procedure.run (w : World) : Procedure → World
  | .webhook body => ((PaymentHandlers.webhook cfg body).run w).2
  | .reconcile userID => ((reconcilePendingUserPayments cfg userID).run w).2
  | .charge sub => ((chargeAutoRenewal cfg sub).run w).2

def grantOf (w : World) (p : Payment) (method : String) : Settlement where
  yooKassaID := p.yooKassaID
  extend := extendedBy w.now p.userID p.plan (keptMethod cfg method)

def renewalOf (w : World) (sub : Subscription) (id : String) : Settlement where
  yooKassaID := id
  extend t := t.updateId sub.id
    (extendedTo (renewedExpiry w.now sub.expiresAt (priceOf sub.plan).durationDays))

def Procedure.Offers (w : World) (s : Settlement) : Procedure → Prop
  | .webhook _ => ∃ p ∈ w.db.payments.rows, ∃ method, s = grantOf cfg w p method
  | .reconcile userID => ∃ p ∈ w.db.payments.rows, p.userID = userID ∧
      ∃ method, s = grantOf cfg w p method
  | .charge sub => ∃ id ∈ nextPayment? w, s = renewalOf w sub id

/-- What becomes succeeded is what subscriptions were extended for. -/
def Agrees (op : Procedure) (w : World) : Prop :=
  ∃ settled, (∀ s ∈ settled, op.Offers cfg w s) ∧
    Accounts settled (booksOf w) (booksOf (op.run cfg w))

variable {cfg} {w : World}

theorem agrees_of_unchanged (h : booksOf (op.run cfg w) = booksOf w) : Agrees cfg op w := by
  refine ⟨[], by simp, accounts_nil (fun yk => ?_) ?_⟩
  · rw [h]
  · rw [h]

theorem accounts_settledBooks (hp : p ∈ w.db.payments.rows)
    (hs : p.status ≠ .succeeded) :
    Accounts [grantOf cfg w p method] (booksOf w) (settledBooks cfg true p method w) :=
  accounts_singleton (not_recorded hp hs) (recorded_mark hp w.now) rfl

section Event

variable (body : Option Json)

def eventOf : List (String × Json) := (bindMap body).getD []

def objectOf : List (String × Json) := asMap (lookup (eventOf body) "object")

def paymentIDOf : String := asString (lookup (objectOf body) "id")

def IsSucceeded : Prop := asString (lookup (eventOf body) "event") = "payment.succeeded"

variable (cfg) in
/-- The provider confirms a payment that is not settled yet and that grants something, and
only the statement that marks the payment fails. -/
def MarkLost (w : World) : Prop :=
  ∃ d p, detailsOf (w.provider.reply (paymentIDOf body)) = some d ∧ d.status = "succeeded" ∧
    paymentByYooKassaID (paymentIDOf body) w.db = some p ∧ p.status ≠ .succeeded ∧
    webhookCommits cfg (paymentIDOf body) p w.db.subscriptions = true ∧
    cfg.faults (.webhookMark (paymentIDOf body)) = true ∧
    ¬ HoldsTrial w.now p.userID p.plan (keptMethod cfg (chosenMethod (objectOf body) d))
      w.db.subscriptions

variable {body}

variable (cfg) in
theorem booksOf_webhook (hb : IsSucceeded body) (w : World) :
    booksOf ((Procedure.webhook body).run cfg w) =
      match detailsOf (w.provider.reply (paymentIDOf body)) with
      | none => booksOf w
      | some d =>
        if d.status = "succeeded" then
          webhookBooks cfg (paymentIDOf body) (chosenMethod (objectOf body) d) w
        else booksOf w := by
  unfold IsSucceeded at hb
  cases he : bindMap body with
  | none =>
    simp only [eventOf, he] at hb
    exact absurd hb (by decide)
  | some event =>
    have hevent : eventOf body = event := by simp [eventOf, he]
    rw [hevent] at hb
    have hne : "payment.succeeded" ≠ "payment.canceled" := by decide
    simp only [Procedure.run, PaymentHandlers.webhook, he, hb, hne, ne_eq, not_true_eq_false,
      if_false, fetchYooKassaPaymentDetails, bind_eq, atom_bind, run_act,
      paymentIDOf, objectOf, hevent]
    cases hd : detailsOf (w.provider.reply
        (asString (lookup (asMap (lookup event "object")) "id"))) with
    | none => rfl
    | some d =>
      by_cases hs : d.status = "succeeded"
      · simp only [hs, not_true_eq_false, if_false, if_true, run_bind]
        rw [← booksOf_webhookConfirmation]
        cases Prog.run _ w with
        | mk r w' => cases r <;> rfl
      · simp only [hs, not_false_eq_true, if_true, if_false]
        rfl

end Event

theorem webhook_agrees_iff (hb : IsSucceeded body) (w : World) :
    Agrees cfg (.webhook body) w ↔ ¬ MarkLost cfg body w := by
  have hbooks := booksOf_webhook cfg hb w
  constructor
  · intro hagree hlost
    obtain ⟨settled, _, hacc⟩ := hagree
    obtain ⟨d, p, hd, hds, hp, hps, hc, hm, hne⟩ := hlost
    simp only [hd, hds, if_true, webhookBooks, hp, hps, ne_eq, not_false_eq_true, hc, and_self,
      hm, Bool.not_true] at hbooks
    rw [hbooks] at hacc
    have hnil := hacc.eq_nil rfl
    subst hnil
    exact hne ((extendedBy_eq_iff p.plan_priced).mp hacc.extended)
  · intro hkept
    cases hd : detailsOf (w.provider.reply (paymentIDOf body)) with
    | none =>
      rw [hd] at hbooks
      exact agrees_of_unchanged hbooks
    | some d =>
      simp only [hd, webhookBooks] at hbooks
      split at hbooks
      · next hds =>
        split at hbooks
        · exact agrees_of_unchanged hbooks
        · next p hp =>
          obtain ⟨hm, hyk⟩ := paymentByYooKassaID_some hp
          split at hbooks
          · next hc =>
            cases hf : cfg.faults (.webhookMark (paymentIDOf body)) with
            | false =>
              simp only [hf, Bool.not_false] at hbooks
              refine ⟨[grantOf cfg w p (chosenMethod (objectOf body) d)], ?_, ?_⟩
              · intro s hs
                exact ⟨p, hm, _, mem_singleton.mp hs⟩
              · rw [hbooks]
                exact accounts_settledBooks hm hc.1
            | true =>
              have hsame := (extendedBy_eq_iff p.plan_priced).mpr (by
                by_contra hne
                exact hkept ⟨d, p, hd, hds, hp, hc.1, hc.2, hf, hne⟩)
              simp only [hf, Bool.not_true] at hbooks
              refine agrees_of_unchanged (hbooks.trans ?_)
              exact congrArg (Books.mk w.db.payments) hsame
          · exact agrees_of_unchanged hbooks
      · exact agrees_of_unchanged hbooks

structure Reconciling (w₀ w : World) : Prop where
  now : w.now = w₀.now
  rows : ∀ q ∈ w.db.payments.rows, ∃ p ∈ w₀.db.payments.rows, SameOrder p q

variable {w₀ : World}

theorem Reconciling.update (h : Reconciling w₀ w) (hnow : w'.now = w.now)
    (hf : ∀ p, SameOrder p (f.apply p)) (hp : w'.db.payments = w.db.payments.update q f) :
    Reconciling w₀ w' where
  now := hnow.trans h.now
  rows r hr := by
    rw [hp] at hr
    obtain ⟨r', hr', rfl⟩ := w.db.payments.mem_update.mp hr
    obtain ⟨p, hp, hpr⟩ := h.rows r' hr'
    refine ⟨p, hp, ?_⟩
    split
    · exact hpr.trans (hf r')
    · exact hpr

variable (cfg) in
theorem reconcile_confirm (h : Reconciling w₀ w) (hp : p ∈ w₀.db.payments.rows)
    (hu : p.userID = u) (d : PaymentDetails) :
    let w' := ((dbTransaction cfg (.reconcileConfirm p.id) (reconcileConfirmation cfg p d)).run w).2
    Reconciling w₀ w' ∧ ∃ settled, (∀ s ∈ settled, (Procedure.reconcile u).Offers cfg w₀ s) ∧
      Accounts settled (booksOf w) (booksOf w') := by
  intro w'
  have hclock : Granting fun v => v.now = w.now :=
    ⟨fun h _ hv => h.trans hv, fun _ _ _ _ _ _ _ hv => hv, fun _ _ _ _ _ hv => hv⟩
  have hundo : ∀ v v', v.now = w.now → v'.now = w.now → (rollback v v').now = w.now :=
    fun _ _ _ h => h
  have hnow : w'.now = w.now :=
    triple_transaction (preserves_reconcileConfirmation hclock p d) hundo w rfl
  have hbooks : booksOf w' = reconcileBooks cfg p.id d.paymentMethodID w :=
    booksOf_reconcileConfirmation p d w
  have hsame : booksOf w' = booksOf w → Reconciling w₀ w' ∧ ∃ settled,
      (∀ s ∈ settled, (Procedure.reconcile u).Offers cfg w₀ s) ∧
        Accounts settled (booksOf w) (booksOf w') := by
    intro he
    have hpay : w'.db.payments = w.db.payments := congrArg Books.payments he
    refine ⟨⟨hnow.trans h.now, ?_⟩, [], by simp, ?_⟩
    · rw [hpay]
      exact h.rows
    · rw [he]
      exact accounts_nil (fun _ => Iff.rfl) rfl
  unfold reconcileBooks at hbooks
  split at hbooks
  · exact hsame hbooks
  · next q hq =>
    split at hbooks
    · next hc =>
      obtain ⟨hm, hid⟩ := w.db.payments.byId_some_iff.mp hq
      obtain ⟨p', hp', hsame'⟩ := h.rows q hm
      have hpp : p' = p := w₀.db.payments.id_injective hp' hp (hsame'.id.symm.trans hid)
      subst hpp
      refine ⟨h.update hnow (succeededAt_sameOrder w.now) (congrArg Books.payments hbooks),
        [grantOf cfg w q d.paymentMethodID], ?_, ?_⟩
      · intro s hs
        refine ⟨p', hp, hu, d.paymentMethodID, (mem_singleton.mp hs).trans ?_⟩
        simp [grantOf, h.now, hsame'.userID, hsame'.yooKassaID, hsame'.plan]
      · rw [hbooks]
        exact accounts_settledBooks hm hc.1
    · exact hsame hbooks

theorem reconcile_cancel (h : Reconciling w₀ w) (id : ℕ) :
    let w' := cancelledWhere (fun p => p.id = id && p.status = .pending) w
    Reconciling w₀ w' ∧ Accounts [] (booksOf w) (booksOf w') :=
  ⟨h.update rfl (setPaymentStatus_sameOrder .cancelled) rfl,
    accounts_nil (recorded_cancel w.db.payments id) rfl⟩

theorem reconcileEach_accounts
    (hps : ∀ p ∈ ps, p ∈ w₀.db.payments.rows ∧ p.userID = u) (h : Reconciling w₀ w) :
    ∃ settled, (∀ s ∈ settled, (Procedure.reconcile u).Offers cfg w₀ s) ∧
      Accounts settled (booksOf w) (booksOf ((reconcileEach cfg ps).run w).2) := by
  induction ps generalizing w with
  | nil => exact ⟨[], by simp, accounts_nil (fun _ => Iff.rfl) rfl⟩
  | cons p ps ih =>
    have hrest : ∀ {w'}, Reconciling w₀ w' → _ := fun h' =>
      ih (fun q hq => hps q (mem_cons_of_mem p hq)) h'
    -- what is left after a step that settled some payments
    have hthen : ∀ {w'}, Reconciling w₀ w' → (∃ settled,
        (∀ s ∈ settled, (Procedure.reconcile u).Offers cfg w₀ s) ∧
          Accounts settled (booksOf w) (booksOf w')) → ∃ settled,
        (∀ s ∈ settled, (Procedure.reconcile u).Offers cfg w₀ s) ∧
          Accounts settled (booksOf w) (booksOf ((reconcileEach cfg ps).run w').2) := by
      intro w' h' hstep
      obtain ⟨s₁, ho₁, ha₁⟩ := hstep
      obtain ⟨s₂, ho₂, ha₂⟩ := hrest h'
      refine ⟨s₁ ++ s₂, ?_, ha₁.append ha₂⟩
      intro s hs
      exact (mem_append.mp hs).elim (ho₁ s) (ho₂ s)
    obtain ⟨hp, hu⟩ := hps p mem_cons_self
    unfold reconcileEach
    split
    · exact hrest h
    simp only [fetchYooKassaPaymentDetails, bind_eq, atom_bind, run_act]
    cases detailsOf (w.provider.reply p.yooKassaID) with
    | none => exact hrest h
    | some d =>
      dsimp only
      split
      · have hstep := reconcile_confirm cfg h hp hu d
        rw [run_bind]
        revert hstep
        cases run (dbTransaction cfg (.reconcileConfirm p.id)
          (reconcileConfirmation cfg p d)) w with
        | mk r w' =>
          intro hstep
          cases r with
          | error e => exact hstep.2
          | ok a => exact hthen hstep.1 hstep.2
      · split
        · simp only [exec1, single, atom_bind, Prog.run_act]
          cases cfg.faults (.reconcileCancel p.id) with
          | true => exact ⟨[], by simp, accounts_nil (fun _ => Iff.rfl) rfl⟩
          | false =>
            obtain ⟨h', ha⟩ := reconcile_cancel h p.id
            exact hthen h' ⟨[], by simp, ha⟩
        · exact hrest h

theorem reconcile_agrees (u : ℕ) (w : World) : Agrees cfg (.reconcile u) w := by
  have hstart : Reconciling w w := ⟨rfl, fun q hq => ⟨q, hq, .refl q⟩⟩
  change ∃ settled, _ ∧ Accounts settled (booksOf w)
    (booksOf ((reconcilePendingUserPayments cfg u).run w).2)
  unfold reconcilePendingUserPayments
  split
  · exact ⟨[], by simp, accounts_nil (fun _ => Iff.rfl) rfl⟩
  simp only [exec1, single, bind_eq, atom_bind, Prog.run_act]
  cases cfg.faults (.reconcileSelect u) with
  | true => exact ⟨[], by simp, accounts_nil (fun _ => Iff.rfl) rfl⟩
  | false =>
    refine reconcileEach_accounts ?_ hstart
    intro p hp
    have hp' := mem_of_mem_take hp
    rw [mem_insertionSort] at hp'
    obtain ⟨hm, hq⟩ := mem_filter.mp hp'
    simp only [Bool.and_eq_true, decide_eq_true_eq] at hq
    exact ⟨hm, hq.1⟩

section Charging

variable (cfg) (sub : Subscription) (id : String) (w : World)

def Charged : Prop :=
  sub.plan ≠ .free ∧ cfg.faults (.renewalUser sub.userID) = false ∧
    (w.db.users.byId sub.userID).isSome = true

def StoreFails : Prop :=
  cfg.faults (.renewalStore sub.userID) = true ∨ ∃ p ∈ w.db.payments.rows, p.yooKassaID = id

structure ChargeBooks (b : Books) : Prop where
  extension : b.subscriptions = if cfg.faults (.renewalExtend sub.userID) = true
    then w.db.subscriptions else (renewalOf w sub id).extend w.db.subscriptions
  refused : StoreFails cfg sub id w → b.payments = w.db.payments
  stored : ¬ StoreFails cfg sub id w →
    ∀ yk, Recorded yk b.payments ↔ Recorded yk w.db.payments ∨ yk = id

variable {cfg sub id w}

variable (cfg sub) in
theorem payments_store (mk : ℕ → Payment) (hw : w'.db.payments = w.db.payments)
    (hid : ∀ i, (mk i).id = i) (hyk : ∀ i, (mk i).yooKassaID = id)
    (hs : ∀ i, (mk i).status = .succeeded) :
    let r := ((exec1 cfg (.renewalStore sub.userID) fun w => createPaymentOf mk w).run w').2
    r.db.subscriptions = w'.db.subscriptions ∧
      (StoreFails cfg sub id w → r.db.payments = w.db.payments) ∧
      (¬ StoreFails cfg sub id w →
        ∀ yk, Recorded yk r.db.payments ↔ Recorded yk w.db.payments ∨ yk = id) := by
  simp only [exec1, single, atom, run_act, Prog.run_done]
  cases hf : cfg.faults (.renewalStore sub.userID) with
  | true => exact ⟨rfl, fun _ => hw, fun hn => absurd (.inl hf) hn⟩
  | false =>
    simp only [Bool.false_eq_true, if_false, createPaymentOf]
    by_cases hdup : ∃ p ∈ w.db.payments.rows, p.yooKassaID = id
    · obtain ⟨p, hp, hpk⟩ := hdup
      have hnone : w'.db.payments.insert mk = none := by
        rw [hw]
        exact w.db.payments.insert_none hp (hpk.trans (hyk _).symm)
      rw [hnone]
      exact ⟨rfl, fun _ => hw, fun hn => absurd (.inr ⟨p, hp, hpk⟩) hn⟩
    · have hkey : ∀ p ∈ w'.db.payments.rows,
          Record.key p ≠ Record.key (mk w'.db.payments.seq) := by
        intro p hp he
        rw [hw] at hp
        exact hdup ⟨p, hp, he.trans (hyk _)⟩
      obtain ⟨t, ht⟩ := w'.db.payments.insert_isSome (hid _) hkey
      have hok : ¬ StoreFails cfg sub id w := by
        rintro (hb | hd)
        · rw [hf] at hb
          cases hb
        · exact hdup hd
      rw [ht]
      refine ⟨rfl, fun hb => absurd hb hok, fun _ yk => ?_⟩
      rw [← hw]
      exact recorded_insert ht hs hyk yk

theorem recordCharge_books (hst : asString (lookup ykResp "status") = "succeeded")
    (hid : asString (lookup ykResp "id") = id) (hdb : w'.db = w.db) (hnow : w'.now = w.now) :
    ChargeBooks cfg sub id w
      (booksOf ((recordCharge cfg sub priced (priceOf sub.plan) ykResp).run w').2) := by
  simp only [recordCharge, readClock, bind_eq, atom_bind, run_act, hst, if_true,
    run_bind, pure_eq, run_done]
  generalize hw : (run (exec1 cfg (.renewalExtend sub.userID) _) w').2 = w₁
  have hext : w₁.db.payments = w.db.payments ∧ w₁.db.subscriptions =
      if cfg.faults (.renewalExtend sub.userID) then w.db.subscriptions
      else (renewalOf w sub id).extend w.db.subscriptions := by
    subst hw
    simp only [exec1, single, atom, run_act, Prog.run_done, writeOf]
    cases cfg.faults (.renewalExtend sub.userID) with
    | true => exact ⟨by rw [← hdb]; rfl, by rw [← hdb]; rfl⟩
    | false =>
      refine ⟨by rw [← hdb]; rfl, ?_⟩
      simp [updateSubscription, hdb, hnow, renewalOf]
  obtain ⟨hsubs, hrefused, hstored⟩ := payments_store cfg sub
    (renewalRow sub priced (priceOf sub.plan).amount (asString (lookup ykResp "id"))
      .succeeded (some w'.now) w₁.now) hext.1 (fun _ => rfl) (fun _ => hid) (fun _ => rfl)
  exact ⟨hsubs.trans hext.2, hrefused, hstored⟩

variable {rest : List HttpResult} {a : HttpResult}

theorem charge_books (hc : Charged cfg sub w) (ha : w.provider.answers = a :: rest)
    (hn : newPaymentOf a = some (id, "succeeded")) :
    ChargeBooks cfg sub id w (booksOf ((Procedure.charge sub).run cfg w)) := by
  obtain ⟨hplan, hf, huser⟩ := hc
  obtain ⟨user, huser⟩ := Option.isSome_iff_exists.mp huser
  obtain ⟨code, data, rfl, hcode, hid, hst⟩ := newPaymentOf_some hn
  have haccepted : ¬ (code ≠ 200 ∧ code ≠ 201) := by omega
  change ChargeBooks cfg sub id w (booksOf ((chargeAutoRenewal cfg sub).run w).2)
  unfold chargeAutoRenewal
  split
  · next hp =>
    rw [(priced_of_ne_free hplan).listed] at hp
    cases hp
  · next info hp =>
    have hinfo : info = priceOf sub.plan := by
      rw [(priced_of_ne_free hplan).listed] at hp
      exact (Option.some.inj hp).symm
    subst hinfo
    simp only [exec1, single, bind_eq, atom_bind, run_act, hf, Bool.false_eq_true,
      if_false, firstOf, huser, postPayment, ha, haccepted, run_bind, pure_eq,
      Prog.run_done]
    exact recordCharge_books hst hid rfl rfl

theorem charge_unsent (hc : ¬ Charged cfg sub w) :
    booksOf ((Procedure.charge sub).run cfg w) = booksOf w := by
  change booksOf ((chargeAutoRenewal cfg sub).run w).2 = booksOf w
  unfold chargeAutoRenewal
  split
  · rfl
  · next info hp =>
    simp only [exec1, single, bind_eq, atom_bind, Prog.run_act, firstOf]
    cases hf : cfg.faults (.renewalUser sub.userID) with
    | true => rfl
    | false =>
      cases hu : w.db.users.byId sub.userID with
      | none => rfl
      | some user =>
        exact absurd ⟨priced_ne_free hp, hf, by rw [hu]; rfl⟩ hc

variable (id) in
theorem renewal_ne (hs : w.db.subscriptionOf sub.userID = some sub) (hp : sub.plan ≠ .free) :
    (renewalOf w sub id).extend w.db.subscriptions ≠ w.db.subscriptions := by
  intro he
  have hsub := updateSubscription_subscriptionOf hs (extendedTo
    (renewedExpiry w.now sub.expiresAt (priceOf sub.plan).durationDays)) sub.userID
  have hdb : updateSubscription sub.id (extendedTo
      (renewedExpiry w.now sub.expiresAt (priceOf sub.plan).durationDays)) w.db = w.db :=
    congrArg (fun t => { w.db with subscriptions := t }) he
  rw [hdb, hs, if_pos rfl] at hsub
  have hexpiry := congrArg Subscription.expiresAt (Option.some.inj hsub)
  have hlt := lt_renewedExpiry w.now sub.expiresAt (priced_of_ne_free hp).duration
  exact absurd hexpiry hlt.ne

theorem charge_agrees_iff (hs : w.db.subscriptionOf sub.userID = some sub)
    (ha : w.provider.answers = a :: rest) (hn : newPaymentOf a = some (id, "succeeded")) :
    Agrees cfg (.charge sub) w ↔ (Charged cfg sub w →
      (cfg.faults (.renewalExtend sub.userID) ↔ StoreFails cfg sub id w)) := by
  by_cases hc : Charged cfg sub w
  · have hb := charge_books hc ha hn
    have hne := renewal_ne id hs hc.1
    have hnext : id ∈ nextPayment? w := by simp [nextPayment?, ha, hn]
    simp only [hc, true_imp_iff]
    constructor
    · intro hagree
      obtain ⟨settled, hoffers, hacc⟩ := hagree
      by_cases hstore : StoreFails cfg sub id w
      · -- nothing is recorded, so nothing may be extended
        have hnil := hacc.eq_nil (hb.refused hstore)
        subst hnil
        refine ⟨fun _ => hstore, fun _ => ?_⟩
        by_contra hf
        have hext := hb.extension
        rw [if_neg hf] at hext
        exact hne (hext.symm.trans hacc.extended)
      · -- the charge is recorded, so the subscription must be extended for it
        have hold : ¬ Recorded id w.db.payments := by
          intro hr
          obtain ⟨p, hp, hpk, _⟩ := hr
          exact hstore (.inr ⟨p, hp, hpk⟩)
        obtain ⟨s, rfl, _⟩ := hacc.eq_singleton hold (hb.stored hstore)
        obtain ⟨id', _, rfl⟩ := hoffers s mem_cons_self
        refine ⟨fun hf => ?_, fun h => absurd h hstore⟩
        have hext := hb.extension
        rw [if_pos hf] at hext
        exact absurd (hacc.extended.symm.trans hext) hne
    · intro hiff
      by_cases hstore : StoreFails cfg sub id w
      · have hext := hb.extension
        rw [if_pos (hiff.mpr hstore)] at hext
        refine agrees_of_unchanged ?_
        exact congrArg₂ Books.mk (hb.refused hstore) hext
      · have hext := hb.extension
        rw [if_neg fun hf => hstore (hiff.mp hf)] at hext
        refine ⟨[renewalOf w sub id], ?_, accounts_singleton ?_ (hb.stored hstore) hext⟩
        · intro s hs
          exact ⟨id, hnext, mem_singleton.mp hs⟩
        · intro hr
          obtain ⟨p, hp, hpk, _⟩ := hr
          exact hstore (.inr ⟨p, hp, hpk⟩)
  · exact ⟨fun _ h => absurd h hc, fun _ => agrees_of_unchanged (charge_unsent hc)⟩

end Charging

end Procedures

/-- A webhook that reports success, a reconciliation, or a charge of a stored subscription
that the provider answers with a payment made. -/
def Procedure.Given (w : World) : Procedure → Prop
  | .webhook body => IsSucceeded body
  | .reconcile _ => True
  | .charge sub => w.db.subscriptionOf sub.userID = some sub ∧ ∃ a rest id,
      w.provider.answers = a :: rest ∧ newPaymentOf a = some (id, "succeeded")

def Procedure.Sound (cfg : Setup) (w : World) : Procedure → Prop
  | .webhook body => ¬ MarkLost cfg body w
  | .reconcile _ => True
  | .charge sub => ∀ id ∈ nextPayment? w, Charged cfg sub w →
      (cfg.faults (.renewalExtend sub.userID) = true ↔ StoreFails cfg sub id w)

theorem record_and_access_agree_iff (cfg : Setup) (op : Procedure) (w : World)
    (h : op.Given w) : Agrees cfg op w ↔ op.Sound cfg w := by
  cases op with
  | webhook body => exact webhook_agrees_iff h w
  | reconcile u => exact ⟨fun _ => trivial, fun _ => reconcile_agrees u w⟩
  | charge sub =>
    obtain ⟨hs, a, rest, id, ha, hn⟩ := h
    have hnext : nextPayment? w = some id := by simp [nextPayment?, ha, hn]
    rw [charge_agrees_iff hs ha hn]
    constructor
    · intro hc id' hid'
      rw [hnext] at hid'
      cases hid'
      exact hc
    · intro hc
      exact hc id hnext

def failing (l : Stmt) : Setup := { Setup.standard "1" with faults := fun m => m = l }

def paidOrder : World :=
  .start { Db.empty with
    users := ⟨[⟨7, "a@example.org"⟩], 8, User.valid_one _⟩
    payments := ⟨[{ samplePayment 1 .basic PlanType.basic_ne_free with
      yooKassaID := "pay-1", status := .pending }], 2, by simp [Valid, samplePayment]⟩ } 0
    (.answering (fun _ => some "succeeded") [])

def succeededBody : Option Json :=
  some (.obj [("event", .str "payment.succeeded"), ("object", .obj [("id", .str "pay-1")])])

def lapsedSubscription : Subscription := ⟨1, 7, .basic, .active, 0, true, "card"⟩

/-- The webhook extends the subscription and leaves the payment pending; the charge extends
it without a record of the payment, or keeps the record without extending it. -/
theorem failures_split_record_and_access :
    (Procedure.webhook succeededBody).Given paidOrder ∧
      ¬ Agrees (failing (.webhookMark "pay-1")) (.webhook succeededBody) paidOrder ∧
      (Procedure.charge lapsedSubscription).Given (lapsedWorld [paidAnswer "pay-1"]) ∧
      ¬ Agrees (failing (.renewalStore 7)) (.charge lapsedSubscription)
        (lapsedWorld [paidAnswer "pay-1"]) ∧
      ¬ Agrees (failing (.renewalExtend 7)) (.charge lapsedSubscription)
        (lapsedWorld [paidAnswer "pay-1"]) := by
  have hcharge : ∀ l, Charged (failing l) lapsedSubscription (lapsedWorld [paidAnswer "pay-1"]) ↔
      (failing l).faults (.renewalUser 7) = false := by
    intro l
    refine ⟨fun h => h.2.1, fun h => ⟨by decide, h, rfl⟩⟩
  have hfresh : ¬ ∃ p ∈ (lapsedWorld [paidAnswer "pay-1"]).db.payments.rows,
      p.yooKassaID = "pay-1" := by
    rintro ⟨p, hp, _⟩
    cases hp
  have hevent : IsSucceeded succeededBody := rfl
  have hanswer : newPaymentOf (paidAnswer "pay-1") = some ("pay-1", "succeeded") := rfl
  refine ⟨hevent, ?_, ⟨rfl, _, _, _, rfl, hanswer⟩, ?_, ?_⟩
  · rw [webhook_agrees_iff hevent, not_not]
    refine ⟨⟨"succeeded", "", ""⟩, _, rfl, rfl, rfl, by decide, rfl, by decide, ?_⟩
    rintro ⟨htrial, _⟩
    exact absurd htrial (by decide)
  · rw [charge_agrees_iff rfl rfl hanswer]
    intro h
    have hf := (h ((hcharge _).mpr (by decide))).mpr (.inl (by decide))
    exact absurd hf (by decide)
  · rw [charge_agrees_iff rfl rfl hanswer]
    intro h
    rcases (h ((hcharge _).mpr (by decide))).mp (by decide) with hf | hd
    · exact absurd hf (by decide)
    · exact hfresh hd

/-- A failed activation takes the mark with it. -/
theorem failed_activation_leaves_nothing :
    (Procedure.webhook succeededBody).Given paidOrder ∧
      Agrees (failing (.activateCreate 1)) (.webhook succeededBody) paidOrder := by
  have hgiven : (Procedure.webhook succeededBody).Given paidOrder := rfl
  refine ⟨hgiven, (record_and_access_agree_iff _ _ _ hgiven).mpr ?_⟩
  rintro ⟨d, p, _, _, _, _, _, hm, _⟩
  exact absurd hm (by decide)

end PaymentFaults
