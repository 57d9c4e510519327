import DrFrakeVpn.ConfirmationEffects
import DrFrakeVpn.RenewalScheduler

/-! # What one action of a handler can do

`Effect` lists the state changes of every action of the payment handlers and of the scheduler when
no statement fails. `Keeps` is what all of them leave in place. -/
namespace HandlerEffects

open SharedPrograms RecordTables FaultyTransactions GoValues List Prog
open BackendModels BackendWorld SubscriptionActivation PaymentHandlers PaymentCreation
open ConfirmationEffects RenewalScheduler

structure SameOrder (p q : Payment) : Prop where
  id : q.id = p.id
  userID : q.userID = p.userID
  yooKassaID : q.yooKassaID = p.yooKassaID
  plan : q.plan = p.plan
  promoCodeID : q.promoCodeID = p.promoCodeID
  amount : q.amount = p.amount

theorem SameOrder.refl (p : Payment) : SameOrder p p := ⟨rfl, rfl, rfl, rfl, rfl, rfl⟩

variable {p : Payment}

theorem SameOrder.trans (h : SameOrder p q) (h' : SameOrder q r) : SameOrder p r :=
  ⟨h'.id.trans h.id, h'.userID.trans h.userID, h'.yooKassaID.trans h.yooKassaID,
    h'.plan.trans h.plan, h'.promoCodeID.trans h.promoCodeID, h'.amount.trans h.amount⟩

def SameSettings (c d : PromoCode) : Prop := d = { c with usedCount := d.usedCount }

structure Keeps (w w' : World) : Prop where
  payments : ∀ p ∈ w.db.payments.rows, ∃ q ∈ w'.db.payments.rows, SameOrder p q
  promos : ∀ c ∈ w.db.promoCodes.rows, ∃ d ∈ w'.db.promoCodes.rows, SameSettings c d
  final : ∀ id st, Final st → w.provider.status id = some st → w'.provider.status id = some st
  now : w.now ≤ w'.now

theorem Keeps.refl (w : World) : Keeps w w where
  payments p hp := ⟨p, hp, .refl p⟩
  promos c hc := ⟨c, hc, rfl⟩
  final _ _ _ h := h
  now := le_refl _

theorem Keeps.trans (h : Keeps a b) (h' : Keeps b c) : Keeps a c where
  payments p hp := by
    obtain ⟨q, hq, hpq⟩ := h.payments p hp
    obtain ⟨r, hr, hqr⟩ := h'.payments q hq
    exact ⟨r, hr, hpq.trans hqr⟩
  promos p hp := by
    obtain ⟨q, hq, hpq⟩ := h.promos p hp
    obtain ⟨r, hr, hqr⟩ := h'.promos q hq
    refine ⟨r, hr, ?_⟩
    rw [hpq] at hqr
    exact hqr
  final id st hf hs := h'.final id st hf (h.final id st hf hs)
  now := h.now.trans h'.now

variable {w : World} {w' : World}

theorem Keeps.of_passes (h : Passes w w') : Keeps w w' where
  payments p hp := ⟨p, by rw [h.db]; exact hp, .refl p⟩
  promos c hc := ⟨c, by rw [h.db]; exact hc, rfl⟩
  final id st hf hs := by
    rcases h.status id st hs with hs' | ⟨hn, _⟩
    · exact hs'
    · exact absurd hf hn
  now := h.now

def order? : Stmt → Option (ℕ × PlanType × Option ℕ × CreateSite)
  | .createPayment u plan promo site => some (u, plan, promo, site)
  | _ => none

variable {l : Stmt}

theorem order_some (h : order? l = some (u, plan, promo, site)) :
    l = .createPayment u plan promo site := by
  cases l with
  | createPayment =>
    cases h
    rfl
  | _ => cases h

def OutsideOrders (n : Option Stmt) : Prop := ∀ l, n = some l → order? l = none

def rank : CreateSite → ℕ
  | .trialCount => 0
  | .promoFind => 1
  | .promoExpiry => 2
  | .promoUses => 3
  | .promoUserUses => 4
  | .confirmTime | .loadUser => 5
  | .post => 6
  | .store | .freeConfirm => 7
  | .freeStore => 8

/-- Where a request stands after one of its sites: at its end or at a later site, with
the promo code it found. It passes the count of uses on its way to an order with a code. -/
def Follows (u : ℕ) (plan : PlanType) (promo : Option ℕ) (site : CreateSite)
    (n : Option Stmt) : Prop :=
  n = none ∨ ∃ promo' site', n = some (.createPayment u plan promo' site') ∧
    rank site < rank site' ∧ (promo' = promo ∨ site = .promoFind) ∧
      (promo' = none ∨ rank site' ≤ rank .promoUses ∨ rank .promoUses ≤ rank site)

def Checked (w : World) (u : ℕ) (plan : PlanType) (promo : Option ℕ) (n : Option Stmt) :
    CreateSite → Prop
  | .trialCount => n ≠ none → w.db.payments.count (isPurchase u) = 0
  | .promoUses => ∀ id, promo = some id → n ≠ none → ∃ c, w.db.promoCodes.byId id = some c ∧
      (0 < c.maxUses → (w.db.payments.count (isPromoUse id) : ℤ) < c.maxUses) ∧
      (c.oncePerUser = true → n = some (.createPayment u plan promo .promoUserUses))
  | .promoUserUses => ∀ id, promo = some id → n ≠ none →
      w.db.payments.count (isPromoUseBy u id) = 0
  | _ => True

/-- Nothing of payments, promo codes, subscriptions, provider or records changes. -/
structure Quiet (w w' : World) : Prop where
  payments : w'.db.payments = w.db.payments
  promoCodes : w'.db.promoCodes = w.db.promoCodes
  subscriptions : w'.db.subscriptions = w.db.subscriptions
  provider : w'.provider = w.provider
  now : w'.now = w.now
  activations : w'.activations = w.activations
  charges : w'.charges = w.charges

def withPayments (t : Table Payment) (w : World) : World :=
  { w with db := { w.db with payments := t } }

def withProvider (a : HttpResult) (rest : List HttpResult) (w : World) : World :=
  { w with provider := w.provider.register a rest }

def cancelledWhere (q : Payment → Bool) (w : World) : World :=
  { w with db := updatePayments q (setPaymentStatus .cancelled) w.db }

inductive Effect (cfg : Setup) : World → Stmt → World → Option Stmt → Prop where
  | quiet {w w' : World} {l : Stmt} {n : Option Stmt} (hl : order? l = none)
      (hn : OutsideOrders n) (h : Quiet w w') : Effect cfg w l w' n
  | check {w : World} {u : ℕ} {plan : PlanType} {promo : Option ℕ} {site : CreateSite}
      {n : Option Stmt} (hf : Follows u plan promo site n) (hc : Checked w u plan promo n site) :
      Effect cfg w (.createPayment u plan promo site) w n
  | ordered {w : World} {u : ℕ} {plan : PlanType} {promo : Option ℕ} {n : Option Stmt}
      (a : HttpResult) (rest : List HttpResult) (hf : Follows u plan promo .post n) :
      Effect cfg w (.createPayment u plan promo .post) (withProvider a rest w) n
  | stored {w : World} {u : ℕ} {plan : PlanType} {promo : Option ℕ} {mk : ℕ → Payment}
      {t : Table Payment} (ht : w.db.payments.insert mk = some t) (hid : ∀ i, (mk i).id = i)
      (hu : ∀ i, (mk i).userID = u) (hplan : ∀ i, (mk i).plan = plan)
      (hpromo : ∀ i, (mk i).promoCodeID = promo) (hs : ∀ i, (mk i).status = .pending) :
      Effect cfg w (.createPayment u plan promo .store) (withPayments t w) none
  | free {w : World} {u : ℕ} {plan : PlanType} {promo : Option ℕ} {mk : ℕ → Payment}
      {t : Table Payment} (ht : w.db.payments.insert mk = some t) (hid : ∀ i, (mk i).id = i)
      (hu : ∀ i, (mk i).userID = u) (hplan : ∀ i, (mk i).plan = plan)
      (hpromo : ∀ i, (mk i).promoCodeID = promo) (hs : ∀ i, (mk i).status = .succeeded)
      (hzero : ∀ i, (mk i).amount = 0) :
      Effect cfg w (.createPayment u plan promo .freeConfirm)
        (freelyConfirmed cfg (mk w.db.payments.seq) t w) none
  | confirm {w : World} {l : Stmt} {n : Option Stmt} (p : Payment) (method : String)
      (hl : l = .webhookConfirm p.yooKassaID ∨ l = .reconcileConfirm p.id)
      (hn : OutsideOrders n) (hp : p ∈ w.db.payments.rows)
      (hs : w.provider.status p.yooKassaID = some "succeeded") :
      Effect cfg w l (confirmed cfg p method w) n
  | approve {w : World} {n : Option Stmt} (p q : Payment) (now : ℤ) (t : Table Payment)
      (hn : OutsideOrders n) (hq : q ∈ w.db.payments.rows) (hpq : SameOrder p q)
      (ht : w.db.payments.replace (approvedRow p now) = some t) :
      Effect cfg w (.approveConfirm p.id) (approved cfg p now t w) n
  | cancelByEvent {w : World} {n : Option Stmt} (yk : String) (hn : OutsideOrders n)
      (hs : w.provider.status yk = some "canceled") :
      Effect cfg w (.webhookCancel yk) (cancelledWhere (fun p => p.yooKassaID = yk) w) n
  | cancelPending {w : World} {n : Option Stmt} (p : Payment) (hn : OutsideOrders n)
      (hp : p ∈ w.db.payments.rows) (hs : w.provider.status p.yooKassaID = some "canceled") :
      Effect cfg w (.reconcileCancel p.id)
        (cancelledWhere (fun q => q.id = p.id && q.status = .pending) w) n
  | charge {w : World} {n : Option Stmt} (sub : Subscription) (a : HttpResult)
      (rest : List HttpResult) (hn : OutsideOrders n) :
      Effect cfg w (.renewalCharge sub.userID) (logCharge sub a (withProvider a rest w)) n
  | chargeLost {w : World} {n : Option Stmt} (sub : Subscription) (hn : OutsideOrders n) :
      Effect cfg w (.renewalCharge sub.userID) (logCharge sub .transportError w) n
  | extend {w : World} {n : Option Stmt} (u id : ℕ) (expiry : ℤ) (hn : OutsideOrders n) :
      Effect cfg w (.renewalExtend u)
        { w with db := updateSubscription id (extendedTo expiry) w.db } n
  | renewalStored {w : World} {n : Option Stmt} {u : ℕ} {mk : ℕ → Payment} {t : Table Payment}
      (hn : OutsideOrders n) (ht : w.db.payments.insert mk = some t) (hid : ∀ i, (mk i).id = i)
      (hu : ∀ i, (mk i).userID = u) (hpromo : ∀ i, (mk i).promoCodeID = none) :
      Effect cfg w (.renewalStore u) (withPayments t w) n
  | expire {w : World} {n : Option Stmt} (now : ℤ) (users : List ℕ) (hn : OutsideOrders n) :
      Effect cfg w .renewalExpire (expireSubscriptions now users w).2 n

variable {cfg : Setup}

theorem Quiet.refl (w : World) : Quiet w w := ⟨rfl, rfl, rfl, rfl, rfl, rfl, rfl⟩

theorem Quiet.keeps (h : Quiet w w') : Keeps w w' where
  payments p hp := ⟨p, by rw [h.payments]; exact hp, .refl p⟩
  promos c hc := ⟨c, by rw [h.promoCodes]; exact hc, rfl⟩
  final id st _ hs := by rw [h.provider]; exact hs
  now := by rw [h.now]

theorem promos_of_promoMarked (p : Payment) (w : World) :
    ∀ c ∈ w.db.promoCodes.rows, ∃ d ∈ (promoMarked p w).db.promoCodes.rows, SameSettings c d := by
  intro c hc
  unfold promoMarked
  split
  · exact ⟨c, hc, rfl⟩
  · next id _ =>
    refine ⟨_, (w.db.promoCodes.mem_update).mpr ⟨c, hc, rfl⟩, ?_⟩
    split <;> rfl

theorem register_final (p : Provider) (a : HttpResult) (rest : List HttpResult) {id st}
    (h : p.status id = some st) : (p.register a rest).status id = some st := by
  unfold Provider.register
  dsimp only
  split
  · rw [if_neg, h]
    rintro ⟨_, hn⟩
    rw [h] at hn
    cases hn
  · exact h

variable {t : Table Payment} {u : Table Payment}

theorem payments_of_insert (h : t.insert mk = some u) :
    ∀ p ∈ t.rows, ∃ q ∈ u.rows, SameOrder p q := by
  intro p hp
  refine ⟨p, ?_, .refl p⟩
  rw [(t.insert_some h).1]
  exact mem_append_left _ hp

theorem payments_of_update
    (hf : ∀ p, SameOrder p (f.apply p)) :
    ∀ p ∈ t.rows, ∃ q' ∈ (t.update q f).rows, SameOrder p q' := by
  intro p hp
  refine ⟨_, t.mem_update.mpr ⟨p, hp, rfl⟩, ?_⟩
  split
  · exact hf p
  · exact .refl p

theorem payments_of_replace (h : t.replace a = some u) (hq : q ∈ t.rows) (hqa : SameOrder q a) :
    ∀ p ∈ t.rows, ∃ q' ∈ u.rows, SameOrder p q' := by
  intro p hp
  rw [(t.replace_some h).1]
  refine ⟨_, mem_map_of_mem hp, ?_⟩
  split
  · next hi =>
    have hpq : p = q := t.id_injective hp hq (hi.trans hqa.id)
    subst hpq
    exact hqa
  · exact .refl p

theorem succeededAt_sameOrder (now : ℤ) (p : Payment) : SameOrder p ((succeededAt now).apply p) :=
  ⟨rfl, rfl, rfl, rfl, rfl, rfl⟩

theorem setPaymentStatus_sameOrder (s : PaymentStatus) (p : Payment) :
    SameOrder p ((setPaymentStatus s).apply p) := ⟨rfl, rfl, rfl, rfl, rfl, rfl⟩

theorem approvedRow_sameOrder (p : Payment) (now : ℤ) : SameOrder p (approvedRow p now) :=
  ⟨rfl, rfl, rfl, rfl, rfl, rfl⟩

theorem SameOrder.symm (h : SameOrder p q) : SameOrder q p :=
  ⟨h.id.symm, h.userID.symm, h.yooKassaID.symm, h.plan.symm, h.promoCodeID.symm,
    h.amount.symm⟩

theorem confirmed_keeps (p : Payment) (method : String) (w : World) :
    Keeps w (confirmed cfg p method w) where
  payments := by
    rw [confirmed_payments]
    split
    · exact fun q hq => ⟨q, hq, .refl q⟩
    · exact payments_of_update (succeededAt_sameOrder w.now)
  promos c hc := by
    unfold confirmed
    split
    · exact promos_of_promoMarked p w c hc
    · exact promos_of_promoMarked _ _ c (by simpa [marked, updatePayments] using hc)
  final id st _ hs := by simpa using hs
  now := by simp

theorem activation_keeps (ht : ∀ q ∈ w.db.payments.rows, ∃ q' ∈ t.rows, SameOrder q q') :
    Keeps w (promoMarked p (activated cfg p method
      { w with db := { w.db with payments := t } })) where
  payments q hq := by simpa using ht q hq
  promos c hc := promos_of_promoMarked _ _ c (by simpa using hc)
  final id st _ hs := by simpa using hs
  now := by simp

theorem withPayments_keeps (ht : ∀ q ∈ w.db.payments.rows, ∃ q' ∈ t.rows, SameOrder q q') :
    Keeps w (withPayments t w) where
  payments := ht
  promos c hc := ⟨c, hc, rfl⟩
  final _ _ _ hs := hs
  now := le_refl _

theorem withProvider_keeps (a : HttpResult) (rest : List HttpResult) (w : World) :
    Keeps w (withProvider a rest w) where
  payments p hp := ⟨p, hp, .refl p⟩
  promos c hc := ⟨c, hc, rfl⟩
  final _ _ _ hs := register_final _ a rest hs
  now := le_refl _

theorem Effect.keeps (h : Effect cfg w l w' n) : Keeps w w' := by
  cases h with
  | quiet _ _ h => exact h.keeps
  | check => exact .refl w
  | ordered a rest => exact withProvider_keeps a rest w
  | stored ht => exact withPayments_keeps (payments_of_insert ht)
  | free ht => exact activation_keeps (payments_of_insert ht)
  | confirm p method => exact confirmed_keeps p method w
  | approve p q now t _ hq hpq ht =>
    exact activation_keeps
      (payments_of_replace ht hq (hpq.symm.trans (approvedRow_sameOrder p now)))
  | cancelByEvent yk =>
    exact withPayments_keeps (payments_of_update (setPaymentStatus_sameOrder .cancelled))
  | cancelPending p =>
    exact withPayments_keeps (payments_of_update (setPaymentStatus_sameOrder .cancelled))
  | charge sub a rest =>
    have h := withProvider_keeps a rest w
    exact ⟨h.payments, h.promos, h.final, h.now⟩
  | chargeLost sub =>
    have h := Keeps.refl w
    exact ⟨h.payments, h.promos, h.final, h.now⟩
  | extend u id expiry =>
    have h := Keeps.refl w
    exact ⟨h.payments, h.promos, h.final, h.now⟩
  | renewalStored _ ht => exact withPayments_keeps (payments_of_insert ht)
  | expire now users =>
    have h := Keeps.refl w
    exact ⟨h.payments, h.promos, h.final, h.now⟩

/-- A structure and not a synonym: the guarantee of a program unfolds with the program. -/
structure Obedient {α : Type} (cfg : Setup) (p : Handler α) (w : World) : Prop where
  obeys : p.Obeys Keeps (fun _ _ => True) (Effect cfg) w

variable {α : Type}

theorem Obedient.done (a : α) (w : World) : Obedient cfg (.done a : Handler α) w :=
  ⟨trivial⟩

variable {w₀ : World} {β : Type} {f : World → β × World}

theorem Obedient.act {next : β → Handler α} (h : ∀ w, Keeps w₀ w → Effect cfg w l (f w).2 (next (f
      w).1).label? ∧ Obedient cfg (next (f w).1) (f w).2) : Obedient cfg (.act l f next) w₀ :=
  ⟨fun w hw _ => ⟨(h w hw).1, (h w hw).2.obeys⟩⟩

theorem outsideOrders_none : OutsideOrders none := by
  intro l hl
  cases hl

theorem outsideOrders_some (h : order? l = none) : OutsideOrders (some l) := by
  intro m hm
  cases hm
  exact h

theorem obedient_read {next : β → Handler α} (hl : order? l = none) (hq : ∀ w, Quiet w (f w).2)
    (hn : ∀ w, OutsideOrders (next (f w).1).label?)
    (h : ∀ w, Keeps w₀ w → Obedient cfg (next (f w).1) (f w).2) : Obedient cfg (.act l f next) w₀ :=
  .act fun w hw => ⟨.quiet hl (hn w) (hq w), h w hw⟩

theorem final_succeeded : Final "succeeded" := Or.inl rfl
theorem final_canceled : Final "canceled" := Or.inr rfl

theorem paymentByYooKassaID_some (h : paymentByYooKassaID yk db = some p) :
    p ∈ db.payments.rows ∧ p.yooKassaID = yk := by
  obtain ⟨hm, hq⟩ := db.payments.first_some h
  exact ⟨hm, by simpa using hq⟩

theorem fetch_obeys {next : Option PaymentDetails → Handler α}
    (hn : ∀ r, OutsideOrders (next r).label?) (hnone : ∀ w, Keeps w₀ w → Obedient cfg (next none) w)
      (hsome : ∀ d w, Keeps w₀ w → w.provider.status yk = some d.status → Obedient cfg (next (some
      d)) w) : Obedient cfg ((fetchYooKassaPaymentDetails yk).bind next) w₀ := by
  refine obedient_read rfl Quiet.refl (fun w => hn _) ?_
  intro w hw
  change Obedient cfg (next (detailsOf (w.provider.reply yk))) w
  cases hd : detailsOf (w.provider.reply yk) with
  | none => exact hnone w hw
  | some d => exact hsome d w hw (w.provider.truthful yk d hd)

variable {next : Except DbError β → Handler α}

theorem first_obeys (h : cfg.Reliable) (hl : order? l = none)
    (hn : ∀ r, OutsideOrders (next r).label?)
    (hnone : ∀ w, Keeps w₀ w → find w.db = none → Obedient cfg (next (.error .recordNotFound)) w)
    (hsome : ∀ a w, Keeps w₀ w → find w.db = some a → Obedient cfg (next (.ok a)) w) :
    Obedient cfg ((exec1 cfg l (firstOf find)).bind next) w₀ := by
  simp only [exec1_reliable h, Prog.atom_bind]
  refine .act fun w hw => ?_
  dsimp only [firstOf]
  cases hf : find w.db with
  | none => exact ⟨.quiet hl (hn _) (.refl w), hnone w hw hf⟩
  | some a => exact ⟨.quiet hl (hn _) (.refl w), hsome a w hw hf⟩

theorem read_obeys (h : cfg.Reliable) {read} (hl : order? l = none)
    (hn : ∀ r, OutsideOrders (next r).label?)
    (hok : ∀ w, Keeps w₀ w → Obedient cfg (next (.ok (read w.db))) w) :
    Obedient cfg ((exec1 cfg l (readOf read)).bind next) w₀ := by
  simp only [exec1_reliable h, Prog.atom_bind]
  exact obedient_read hl Quiet.refl (fun w => hn _) hok

theorem webhook_obeys (h : cfg.Reliable) (body : Option Json) (w₀ : World) :
    Obedient cfg (webhook cfg body) w₀ := by
  unfold webhook
  cases bindMap body with
  | none => exact .done _ _
  | some event =>
    simp only [exec1_reliable h, dbTransaction_reliable h, bind_eq, Prog.atom_bind]
    generalize asString (lookup (asMap (lookup event "object")) "id") = yk
    split
    · -- `payment.canceled`
      refine fetch_obeys ?_ (fun w _ => .done _ w) ?_
      · rintro (_ | d)
        · exact outsideOrders_none
        · dsimp only
          split
          · exact outsideOrders_none
          · exact outsideOrders_some rfl
      · intro d w _ hst
        dsimp only
        split
        · exact .done _ _
        · next hs =>
          rw [not_not.mp hs] at hst
          refine .act fun w' hw => ?_
          exact ⟨.cancelByEvent yk outsideOrders_none (hw.final _ _ final_canceled hst), .done _ _⟩
    · split
      · exact .done _ _
      -- `payment.succeeded`
      refine fetch_obeys ?_ (fun w _ => .done _ w) ?_
      · rintro (_ | d)
        · exact outsideOrders_none
        · dsimp only
          split
          · exact outsideOrders_none
          · exact outsideOrders_some rfl
      · intro d w _ hst
        dsimp only
        split
        · exact .done _ _
        · next hs =>
          rw [not_not.mp hs] at hst
          refine .act fun w' hw => ?_
          have hst' := hw.final _ _ final_succeeded hst
          rw [transact_webhookConfirmation h]
          cases hp : paymentByYooKassaID yk w'.db with
          | none => exact ⟨.quiet rfl outsideOrders_none (.refl w'), .done _ _⟩
          | some p =>
            obtain ⟨hm, hyk⟩ := paymentByYooKassaID_some hp
            subst hyk
            exact ⟨.confirm p _ (.inl rfl) outsideOrders_none hm hst', .done _ _⟩

theorem outsideOrders_reconcileEach (ps : List Payment) :
    OutsideOrders (reconcileEach cfg ps).label? := by
  induction ps with
  | nil => exact outsideOrders_none
  | cons p ps ih =>
    unfold reconcileEach
    split
    · exact ih
    · exact outsideOrders_some rfl

theorem Keeps.row (h : Keeps w w') (hp : p ∈ w.db.payments.rows) :
    ∃ q, w'.db.payments.byId p.id = some q ∧ q ∈ w'.db.payments.rows ∧ SameOrder p q := by
  obtain ⟨q, hq, hpq⟩ := h.payments p hp
  exact ⟨q, (w'.db.payments.byId_some_iff).mpr ⟨hq, hpq.id⟩, hq, hpq⟩

theorem reconcileEach_obeys (h : cfg.Reliable)
    (hps : ∀ p ∈ ps, ∃ q ∈ w₀.db.payments.rows, SameOrder p q) :
    Obedient cfg (reconcileEach cfg ps) w₀ := by
  induction ps generalizing w₀ with
  | nil => exact .done _ _
  | cons p ps ih =>
    have hrest : ∀ w, Keeps w₀ w → Obedient cfg (reconcileEach cfg ps) w := by
      intro w hw
      refine ih fun p' hp' => ?_
      obtain ⟨q, hq, hpq⟩ := hps p' (mem_cons_of_mem _ hp')
      obtain ⟨r, hr, hqr⟩ := hw.payments q hq
      exact ⟨r, hr, hpq.trans hqr⟩
    unfold reconcileEach
    split
    · exact hrest w₀ (.refl w₀)
    simp only [exec1_reliable h, dbTransaction_reliable h, bind_eq, Prog.atom_bind]
    refine fetch_obeys ?_ hrest ?_
    · rintro (_ | d)
      · exact outsideOrders_reconcileEach ps
      dsimp only
      split
      · exact outsideOrders_some rfl
      · split
        · exact outsideOrders_some rfl
        · exact outsideOrders_reconcileEach ps
    · intro d w hw hst
      obtain ⟨q, hq, hpq⟩ := hps p mem_cons_self
      have hw' := fun w' (h' : Keeps w w') => hw.trans h'
      dsimp only
      split
      · next hs =>
        rw [hs] at hst
        refine .act fun w' hk => ?_
        obtain ⟨r, hbyId, hr, hqr⟩ := (hw' w' hk).row hq
        have hpr := hpq.trans hqr
        rw [hpq.id] at hbyId
        have hst' := hk.final _ _ final_succeeded hst
        rw [← hpr.yooKassaID] at hst'
        rw [transact_reconcileConfirmation h, hbyId]
        refine ⟨.confirm r _ (.inr (by rw [hpr.id])) (outsideOrders_reconcileEach ps) hr hst', ?_⟩
        exact hrest _ ((hw' w' hk).trans (confirmed_keeps r _ w'))
      · split
        · next hs =>
          rw [hs] at hst
          refine .act fun w' hk => ?_
          obtain ⟨r, hbyId, hr, hqr⟩ := (hw' w' hk).row hq
          have hpr := hpq.trans hqr
          have hst' := hk.final _ _ final_canceled hst
          rw [← hpr.yooKassaID] at hst'
          have he : Effect cfg w' _ _ (reconcileEach cfg ps).label? :=
            .cancelPending r (outsideOrders_reconcileEach ps) hr hst'
          rw [hpr.id] at he
          exact ⟨he, hrest _ ((hw' w' hk).trans he.keeps)⟩
        · exact hrest w hw

theorem reconcilePendingUserPayments_obeys (h : cfg.Reliable) (u : ℕ) (w₀ : World) :
    Obedient cfg (reconcilePendingUserPayments cfg u) w₀ := by
  unfold reconcilePendingUserPayments
  split
  · exact .done _ _
  refine read_obeys h rfl ?_ ?_
  · rintro (_ | ps)
    · exact outsideOrders_none
    · exact outsideOrders_reconcileEach ps
  · intro w _
    refine reconcileEach_obeys h ?_
    intro p hp
    have hp' := mem_of_mem_take hp
    rw [mem_insertionSort] at hp'
    exact ⟨p, mem_of_mem_filter hp', .refl p⟩

theorem approvePayment_obeys (h : cfg.Reliable) (id : ℕ) (w₀ : World) :
    Obedient cfg (approvePayment cfg id) w₀ := by
  refine first_obeys h rfl ?_ (fun w _ _ => .done _ w) ?_
  · rintro (_ | p)
    · exact outsideOrders_none
    · dsimp only
      split
      · exact outsideOrders_none
      · exact outsideOrders_some rfl
  · intro p w _ hp
    obtain ⟨hm, hid⟩ := w.db.payments.byId_some_iff.mp hp
    subst hid
    dsimp only
    split
    · exact .done _ _
    simp only [dbTransaction, transaction, readClock, bind_eq, Prog.atom_bind, h _,
      Bool.false_eq_true, if_false]
    refine obedient_read rfl Quiet.refl (fun _ => outsideOrders_some rfl) ?_
    intro w₁ hw₁
    refine .act fun w₂ hw₂ => ?_
    obtain ⟨q, hbyId, hq, hpq⟩ := (hw₁.trans hw₂).row hm
    have hkey := hpq.yooKassaID
    obtain ⟨t, ht⟩ : ∃ t, w₂.db.payments.replace (approvedRow p w₁.now) = some t :=
      w₂.db.payments.replace_isSome hbyId hkey
    rw [transact_ok (exec_approveConfirmation h ht)]
    exact ⟨.approve p q w₁.now t outsideOrders_none hq hpq ht, .done _ _⟩

end HandlerEffects
