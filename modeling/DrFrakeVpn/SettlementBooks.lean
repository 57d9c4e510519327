import DrFrakeVpn.HandlerEffects
import DrFrakeVpn.SubscriptionValue

/-! # Books of payments and subscriptions

The books agree if the payments that became succeeded are those that the subscriptions were
extended for. -/
namespace SettlementBooks

open SharedPrograms RecordTables FaultyTransactions GoValues List
open BackendModels BackendWorld SubscriptionActivation PaymentHandlers
open ConfirmationEffects SubscriptionValue

structure Books where
  payments : Table Payment
  subscriptions : Table Subscription

def booksOf (w : World) : Books := ⟨w.db.payments, w.db.subscriptions⟩

/-- A payment of the provider, with what it does to the subscriptions when it is settled. -/
structure Settlement where
  yooKassaID : String
  extend : Table Subscription → Table Subscription

def Recorded (yk : String) (t : Table Payment) : Prop :=
  ∃ p ∈ t.rows, p.yooKassaID = yk ∧ p.status = .succeeded

/-- The settled payments, and no others, become succeeded, and the subscriptions are
extended for them, and for no others. -/
structure Accounts (settled : List Settlement) (b b' : Books) : Prop where
  distinct : (settled.map Settlement.yooKassaID).Nodup
  unrecorded : ∀ s ∈ settled, ¬ Recorded s.yooKassaID b.payments
  recorded : ∀ yk, Recorded yk b'.payments ↔
    Recorded yk b.payments ∨ yk ∈ settled.map Settlement.yooKassaID
  extended : b'.subscriptions = settled.foldl (fun t s => s.extend t) b.subscriptions

variable {b : Books} {b' : Books}

theorem accounts_nil (hp : ∀ yk, Recorded yk b'.payments ↔ Recorded yk b.payments)
    (hs : b'.subscriptions = b.subscriptions) : Accounts [] b b' :=
  ⟨nodup_nil, by simp, fun yk => by simp [hp yk], hs⟩

theorem Accounts.append {s₁ s₂ : List Settlement} {a c : Books} (h : Accounts s₁ a b)
    (h' : Accounts s₂ b c) : Accounts (s₁ ++ s₂) a c where
  distinct := by
    rw [map_append, nodup_append]
    refine ⟨h.distinct, h'.distinct, ?_⟩
    intro x hx y hy hxy
    subst hxy
    obtain ⟨s, hs, rfl⟩ := mem_map.mp hy
    exact h'.unrecorded s hs ((h.recorded _).mpr (.inr hx))
  unrecorded s hs hr := by
    rcases mem_append.mp hs with hs | hs
    · exact h.unrecorded s hs hr
    · exact h'.unrecorded s hs ((h.recorded _).mpr (.inl hr))
  recorded yk := by
    rw [h'.recorded, h.recorded, map_append, mem_append, or_assoc]
  extended := by rw [foldl_append, ← h.extended, h'.extended]

variable {settled : List Settlement}

theorem Accounts.eq_nil (h : Accounts settled b b') (hp : b'.payments = b.payments) :
    settled = [] := by
  cases settled with
  | nil => rfl
  | cons s rest =>
    have hr := (h.recorded s.yooKassaID).mpr (.inr mem_cons_self)
    rw [hp] at hr
    exact absurd hr (h.unrecorded s mem_cons_self)

theorem Accounts.eq_singleton {yk : String} (h : Accounts settled b b')
    (hold : ¬ Recorded yk b.payments)
    (hnew : ∀ x, Recorded x b'.payments ↔ Recorded x b.payments ∨ x = yk) :
    ∃ s, settled = [s] ∧ s.yooKassaID = yk := by
  have hall : ∀ s ∈ settled, s.yooKassaID = yk := by
    intro s hs
    have hr := (h.recorded s.yooKassaID).mpr (.inr (mem_map_of_mem hs))
    rcases (hnew _).mp hr with hr | he
    · exact absurd hr (h.unrecorded s hs)
    · exact he
  have hmem := ((h.recorded yk).mp ((hnew yk).mpr (.inr rfl))).resolve_left hold
  have hd := h.distinct
  cases settled with
  | nil => cases hmem
  | cons s rest =>
    cases rest with
    | nil => exact ⟨s, rfl, hall s mem_cons_self⟩
    | cons t rest =>
      have hst : s.yooKassaID = t.yooKassaID :=
        (hall s mem_cons_self).trans (hall t (by simp)).symm
      simp [hst] at hd

variable {p : Payment} {t : Table Payment}

theorem not_recorded (hp : p ∈ t.rows) (hs : p.status ≠ .succeeded) :
    ¬ Recorded p.yooKassaID t := by
  intro hr
  obtain ⟨q, hq, hyk, hqs⟩ := hr
  have hqp : q = p := t.key_injective hq hp hyk
  exact hs (hqp ▸ hqs)

theorem recorded_mark (hp : p ∈ t.rows) (now : ℤ) (yk : String) :
    Recorded yk (t.updateId p.id (succeededAt now)) ↔ Recorded yk t ∨ yk = p.yooKassaID := by
  constructor
  · intro hr
    obtain ⟨q, hq, hyk, hs⟩ := hr
    obtain ⟨r, hr, rfl⟩ := t.mem_update.mp hq
    by_cases hid : Record.id r = p.id
    · have hrp : r = p := t.id_injective hr hp hid
      subst hrp
      simp only [hid, decide_true, if_true] at hyk
      exact .inr hyk.symm
    · simp only [hid, decide_false, Bool.false_eq_true, if_false] at hyk hs
      exact .inl ⟨r, hr, hyk, hs⟩
  · intro hr
    rcases hr with ⟨q, hq, hyk, hs⟩ | rfl
    · refine ⟨_, t.mem_update.mpr ⟨q, hq, rfl⟩, ?_, ?_⟩
      · split <;> exact hyk
      · split
        · rfl
        · exact hs
    · refine ⟨_, t.mem_update.mpr ⟨p, hp, rfl⟩, ?_, ?_⟩
      · split <;> rfl
      · simp only [payment_id, decide_true, if_true]
        rfl

theorem recorded_cancel (t : Table Payment) (id : ℕ) (yk : String) :
    Recorded yk (t.update (fun p => p.id = id && p.status = .pending)
      (setPaymentStatus .cancelled)) ↔ Recorded yk t := by
  constructor
  · intro hr
    obtain ⟨q, hq, hyk, hs⟩ := hr
    obtain ⟨r, hr, rfl⟩ := t.mem_update.mp hq
    split at hs
    · cases hs
    · next hc =>
      rw [if_neg hc] at hyk
      exact ⟨r, hr, hyk, hs⟩
  · intro hr
    obtain ⟨q, hq, hyk, hs⟩ := hr
    refine ⟨q, t.mem_update.mpr ⟨q, hq, ?_⟩, hyk, hs⟩
    simp [hs]

theorem recorded_insert {u : Table Payment} {mk : ℕ → Payment} (ht : t.insert mk = some u)
    (hs : ∀ i, (mk i).status = .succeeded) {new : String} (hyk : ∀ i, (mk i).yooKassaID = new)
    (yk : String) : Recorded yk u ↔ Recorded yk t ∨ yk = new := by
  simp only [Recorded, (t.insert_some ht).1, mem_append, mem_singleton]
  constructor
  · intro hr
    obtain ⟨q, hq | rfl, hqk, hqs⟩ := hr
    · exact .inl ⟨q, hq, hqk, hqs⟩
    · exact .inr (hqk.symm.trans (hyk _))
  · intro hr
    rcases hr with ⟨q, hq, hqk, hqs⟩ | rfl
    · exact ⟨q, .inl hq, hqk, hqs⟩
    · exact ⟨_, .inr rfl, hyk _, hs _⟩

theorem accounts_singleton {s : Settlement} (hold : ¬ Recorded s.yooKassaID b.payments)
    (hnew : ∀ yk, Recorded yk b'.payments ↔ Recorded yk b.payments ∨ yk = s.yooKassaID)
    (he : b'.subscriptions = s.extend b.subscriptions) : Accounts [s] b b' where
  distinct := nodup_singleton _
  unrecorded t ht := by
    rw [mem_singleton.mp ht]
    exact hold
  recorded yk := by simp [hnew yk]
  extended := he

def extendedBy (now : ℤ) (userID : ℕ) (plan : PlanType) (method : String)
    (t : Table Subscription) : Table Subscription :=
  match t.first? fun s => s.userID = userID with
  | some sub => t.updateId sub.id (activatedRow plan method (newExpiry now plan sub))
  | none => (t.insert (freshRow now plan userID method)).getD t

theorem activatedDb_subscriptions (now : ℤ) :
    (activatedDb now p method db).subscriptions =
      extendedBy now p.userID p.plan method db.subscriptions := by
  simp only [activatedDb, extendedBy, Db.subscriptionOf]
  cases db.subscriptions.first? _ with
  | some sub => rfl
  | none =>
    simp only [createSubscription]
    cases db.subscriptions.insert _ <;> rfl

def HoldsTrial (now : ℤ) (userID : ℕ) (plan : PlanType) (method : String)
    (t : Table Subscription) : Prop :=
  plan = .trial ∧ ∃ sub ∈ t.rows, sub.userID = userID ∧ sub.plan = .trial ∧
    sub.status = .active ∧ sub.expiresAt = now + 3 * GoTime.day ∧ sub.autoRenew = false ∧
    (method = "" ∨ sub.paymentMethodID = method)

variable {plan : PlanType} {method : String}

theorem activatedRow_eq_iff {now : ℤ} {sub : Subscription} (hp : plan ≠ .free) :
    (activatedRow plan method (newExpiry now plan sub)).apply sub = sub ↔
      plan = .trial ∧ sub.plan = .trial ∧ sub.status = .active ∧
        sub.expiresAt = now + 3 * GoTime.day ∧ sub.autoRenew = false ∧
        (method = "" ∨ sub.paymentMethodID = method) := by
  constructor
  · intro he
    have hplan : plan = sub.plan := congrArg Subscription.plan he
    have hstatus : .active = sub.status := congrArg Subscription.status he
    have hexpiry := congrArg Subscription.expiresAt he
    have hrenew := congrArg Subscription.autoRenew he
    have hmethod : (if method ≠ "" then method else sub.paymentMethodID) = sub.paymentMethodID :=
      congrArg Subscription.paymentMethodID he
    obtain ⟨htrial, hdate⟩ := (newExpiry_eq_iff hp hplan).mp hexpiry
    refine ⟨htrial, hplan.symm.trans htrial, hstatus.symm, hdate, ?_, ?_⟩
    · rw [← hrenew, htrial]
      rfl
    · by_cases hm : method = ""
      · exact .inl hm
      · rw [if_pos hm] at hmethod
        exact .inr hmethod.symm
  · rintro ⟨htrial, hplan, hstatus, hdate, hrenew, hmethod⟩
    have hsame : plan = sub.plan := htrial.trans hplan.symm
    have hexpiry := (newExpiry_eq_iff hp hsame).mpr ⟨htrial, hdate⟩
    have hkeep : (if method ≠ "" then method else sub.paymentMethodID) = sub.paymentMethodID := by
      rcases hmethod with hm | hm
      · rw [if_neg (not_not.mpr hm)]
      · rw [hm]
        split <;> rfl
    subst htrial
    simp only [activatedRow, hexpiry, hkeep, ne_eq, not_true_eq_false, decide_false, Bool.false_and]
    rw [← hrenew, ← hstatus, ← hplan]

theorem extendedBy_eq_iff {now : ℤ} {userID : ℕ} {t : Table Subscription} (hp : plan ≠ .free) :
    extendedBy now userID plan method t = t ↔ HoldsTrial now userID plan method t := by
  unfold extendedBy HoldsTrial
  cases hf : t.first? (fun s => s.userID = userID) with
  | none =>
    have hnone : ∀ s ∈ t.rows, s.userID ≠ userID := by
      intro s hs
      simpa using t.first_none hf s hs
    obtain ⟨u, hu⟩ : ∃ u, t.insert (freshRow now plan userID method) = some u :=
      t.insert_isSome rfl hnone
    constructor
    · intro he
      simp only [hu, Option.getD_some] at he
      have hrows := (t.insert_some hu).1
      rw [he] at hrows
      exact absurd (congrArg length hrows) (by simp)
    · rintro ⟨_, s, hs, hsu, _⟩
      exact absurd hsu (hnone s hs)
  | some sub =>
    obtain ⟨hm, hu⟩ := t.first_some hf
    have huser : sub.userID = userID := by simpa using hu
    refine (t.updateId_eq_iff hm _).trans ((activatedRow_eq_iff hp).trans ?_)
    constructor
    · rintro ⟨htrial, hrest⟩
      exact ⟨htrial, sub, hm, huser, hrest⟩
    · rintro ⟨htrial, s, hs, hsu, hrest⟩
      have hss : s = sub := t.key_injective hs hm (hsu.trans huser.symm)
      subst hss
      exact ⟨htrial, hrest⟩

section Granting

variable (cfg : Setup)

/-- The activation works. An error of the lookup counts as "no subscription yet", and then
the insert is refused if there is one. -/
def activates (p : Payment) (t : Table Subscription) : Bool :=
  match t.first? fun s => s.userID = p.userID with
  | some _ => !cfg.faults (.activateFind p.id) && !cfg.faults (.activateUpdate p.id)
  | none => !cfg.faults (.activateCreate p.id)

def countsPromo (p : Payment) : Bool := p.promoCodeID.isNone || !cfg.faults (.promoUpdate p.id)

def grants (p : Payment) (t : Table Subscription) : Bool := activates cfg p t && countsPromo cfg p

variable {cfg}

theorem createSubscription_none {db : Db} {u : ℕ} {sub : Subscription} {mk : ℕ → Subscription}
    (hs : db.subscriptionOf u = some sub) (hu : ∀ n, (mk n).userID = u) :
    createSubscription mk db = none := by
  obtain ⟨hm, hsu⟩ := Db.subscriptionOf_some_iff.mp hs
  have hnone := db.subscriptions.insert_none hm (hsu.trans (hu _).symm)
  rw [createSubscription, hnone]
  rfl

theorem exec_activate_ok {w : World} (method : String)
    (h : activates cfg p w.db.subscriptions) :
    exec (activateSubscriptionFromPayment cfg p method) w = (.ok (), activated cfg p method w) := by
  unfold activates at h
  unfold activateSubscriptionFromPayment
  simp only [exec_bind, exec_modify, exec_get, exec_attempt, stmt, exec_statement, firstOf]
  cases hs : w.db.subscriptions.first? (fun s => s.userID = p.userID) with
  | some sub =>
    simp only [hs, Bool.and_eq_true, Bool.not_eq_true'] at h
    simp [h.1, h.2, Db.subscriptionOf, hs, writeOf, activated, activatedDb]
  | none =>
    simp only [hs, Bool.not_eq_true'] at h
    obtain ⟨t, _, hc⟩ := createSubscription_some
      (freshRow w.now p.plan p.userID (keptMethod cfg method)) (fun _ => rfl) (fun _ => rfl) hs
    cases cfg.faults (.activateFind p.id) <;>
      simp [h, Db.subscriptionOf, hs, tryWriteOf, activated, activatedDb, hc]

theorem exec_activate_error {w : World} (method : String)
    (h : activates cfg p w.db.subscriptions = false) :
    ∃ e w', exec (activateSubscriptionFromPayment cfg p method) w = (.error e, w') := by
  unfold activates at h
  unfold activateSubscriptionFromPayment
  simp only [exec_bind, exec_modify, exec_get, exec_attempt, stmt, exec_statement, firstOf]
  cases hs : w.db.subscriptions.first? (fun s => s.userID = p.userID) with
  | some sub =>
    have hnone : createSubscription (freshRow w.now p.plan p.userID (keptMethod cfg method)) w.db =
        none := createSubscription_none hs fun _ => rfl
    cases hf : cfg.faults (.activateFind p.id) with
    | true =>
      cases hc : cfg.faults (.activateCreate p.id) <;> simp [hc, tryWriteOf, hnone]
    | false =>
      simp only [hs, hf, Bool.not_false, Bool.true_and, Bool.not_eq_false'] at h
      simp [h, Db.subscriptionOf, hs]
  | none =>
    simp only [hs, Bool.not_eq_false'] at h
    cases cfg.faults (.activateFind p.id) <;> simp [h, Db.subscriptionOf, hs]

theorem exec_promo_ok (w : World) (h : countsPromo cfg p) :
    ∃ w', exec (markPromoCodeUsed cfg p) w = (.ok (), w') ∧ booksOf w' = booksOf w := by
  unfold countsPromo at h
  unfold markPromoCodeUsed
  cases hp : p.promoCodeID with
  | none => exact ⟨w, rfl, rfl⟩
  | some id =>
    have hu : cfg.faults (.promoUpdate p.id) = false := by simpa [hp] using h
    cases hc : cfg.faults (.promoCount p.id) <;>
      simp [promoSuccessfulUseCount, exec_bind, stmt, hc, hu, readOf, writeOf,
        booksOf, setUsedCount]

theorem exec_promo_error (w : World) (h : countsPromo cfg p = false) :
    ∃ e w', exec (markPromoCodeUsed cfg p) w = (.error e, w') := by
  unfold countsPromo at h
  unfold markPromoCodeUsed
  cases hp : p.promoCodeID with
  | none => simp [hp] at h
  | some id =>
    have hu : cfg.faults (.promoUpdate p.id) := by simpa [hp] using h
    cases hc : cfg.faults (.promoCount p.id) <;>
      simp [promoSuccessfulUseCount, exec_bind, stmt, hc, hu, readOf]

variable (cfg) in
theorem exec_grant (p : Payment) (method : String) (w : World) :
    (grants cfg p w.db.subscriptions ∧ ∃ w', exec (do
        activateSubscriptionFromPayment cfg p method
        markPromoCodeUsed cfg p) w = (.ok (), w') ∧
      booksOf w' = ⟨w.db.payments, extendedBy w.now p.userID p.plan (keptMethod cfg method)
        w.db.subscriptions⟩) ∨
    (grants cfg p w.db.subscriptions = false ∧ ∃ e w', exec (do
        activateSubscriptionFromPayment cfg p method
        markPromoCodeUsed cfg p) w = (.error e, w')) := by
  unfold grants
  cases ha : activates cfg p w.db.subscriptions with
  | false =>
    obtain ⟨e, w', he⟩ := exec_activate_error method ha
    exact .inr ⟨rfl, e, w', by rw [exec_bind, he]⟩
  | true =>
    have he := exec_activate_ok method ha
    cases hc : countsPromo cfg p with
    | false =>
      obtain ⟨e, w', hp⟩ := exec_promo_error (activated cfg p method w) hc
      exact .inr ⟨rfl, e, w', by rw [exec_bind, he]; exact hp⟩
    | true =>
      obtain ⟨w', hp, hb⟩ := exec_promo_ok (activated cfg p method w) hc
      refine .inl ⟨rfl, w', by rw [exec_bind, he]; exact hp, ?_⟩
      rw [hb, booksOf, activated_payments]
      exact congrArg _ (activatedDb_subscriptions ..)

end Granting

section Transactions

variable (cfg : Setup)

def webhookCommits (yk : String) (p : Payment) (t : Table Subscription) : Bool :=
  !cfg.faults (.webhookConfirm yk) && !cfg.faults (.webhookFind yk) &&
    !cfg.faults (.webhookSubscription yk) && grants cfg p t

def reconcileCommits (id : ℕ) (p : Payment) (t : Table Subscription) : Bool :=
  !cfg.faults (.reconcileConfirm id) && !cfg.faults (.reconcileFind id) &&
    !cfg.faults (.reconcileMark id) && grants cfg p t

def settledBooks (marked : Bool) (p : Payment) (method : String) (w : World) : Books where
  payments := if marked then w.db.payments.updateId p.id (succeededAt w.now) else w.db.payments
  subscriptions := extendedBy w.now p.userID p.plan (keptMethod cfg method) w.db.subscriptions

def webhookBooks (yk : String) (method : String) (w : World) : Books :=
  match paymentByYooKassaID yk w.db with
  | none => booksOf w
  | some p =>
    if p.status ≠ .succeeded ∧ webhookCommits cfg yk p w.db.subscriptions = true then
      settledBooks cfg (!cfg.faults (.webhookMark yk)) p method w
    else booksOf w

def reconcileBooks (id : ℕ) (method : String) (w : World) : Books :=
  match w.db.payments.byId id with
  | none => booksOf w
  | some p =>
    if p.status ≠ .succeeded ∧ reconcileCommits cfg id p w.db.subscriptions = true then
      settledBooks cfg true p method w
    else booksOf w

variable {cfg}

theorem booksOf_rollback (w w' : World) : booksOf (rollback w w') = booksOf w := rfl

theorem booksOf_transact_error {α : Type} {x : DbTx α} {w w' : World} {e : DbError}
    (h : exec x w = (.error e, w')) : booksOf (transact rollback x w).2 = booksOf w := by
  rw [transact_error h]
  exact booksOf_rollback w w'

theorem booksOf_promo (p : Payment) (w : World) :
    booksOf (transact rollback (markPromoCodeUsed cfg p) w).2 = booksOf w := by
  cases hc : countsPromo cfg p with
  | false =>
    obtain ⟨e, w', he⟩ := exec_promo_error w hc
    exact booksOf_transact_error he
  | true =>
    obtain ⟨w', he, hb⟩ := exec_promo_ok w hc
    rw [transact_ok he]
    exact hb

theorem booksOf_grant {x : DbTx Unit} {method : String} {w : World} (marked : Bool)
    (hx : exec x w = exec (do
      activateSubscriptionFromPayment cfg ((succeededAt w.now).apply p) method
      markPromoCodeUsed cfg ((succeededAt w.now).apply p))
      (if marked then ConfirmationEffects.marked p w else w)) :
    booksOf (transact rollback x w).2 = if grants cfg p w.db.subscriptions then
      settledBooks cfg marked p method w else booksOf w := by
  have hsame : grants cfg ((succeededAt w.now).apply p)
      (if marked then ConfirmationEffects.marked p w else w).db.subscriptions =
        grants cfg p w.db.subscriptions := by
    cases marked <;> rfl
  rcases exec_grant cfg ((succeededAt w.now).apply p) method
    (if marked then ConfirmationEffects.marked p w else w) with ⟨hg, w', he, hb⟩ | ⟨hg, e, w', he⟩
  · rw [hsame] at hg
    rw [transact_ok (hx.trans he), if_pos hg, hb]
    cases marked <;> rfl
  · rw [hsame] at hg
    rw [booksOf_transact_error (hx.trans he), if_neg (by simp [hg])]

/-- What the two confirmations have in common. They end with an error if the payment is not found
(`find` is the fault of the lookup) or a later statement fails (`stop`), count the promo code again
if it was settled before, and grant the plan otherwise. -/
theorem booksOf_confirmation {l : Stmt} {x : DbTx Unit} {w : World} {method : String}
    {found : Option Payment} {find stop m : Bool} :
    (find ∨ found = none → ∃ e, exec x w = (.error e, w)) →
    (∀ p, find = false → found = some p → p.status = .succeeded →
      exec x w = exec (markPromoCodeUsed cfg p) w) →
    (∀ p, find = false → found = some p → p.status ≠ .succeeded → stop →
      ∃ e w', exec x w = (.error e, w')) →
    (∀ p, find = false → found = some p → p.status ≠ .succeeded → stop = false →
      exec x w = exec (do
        activateSubscriptionFromPayment cfg ((succeededAt w.now).apply p) method
        markPromoCodeUsed cfg ((succeededAt w.now).apply p)) (if m then marked p w else w)) →
    booksOf ((dbTransaction cfg l x).run w).2 = match found with
      | none => booksOf w
      | some p =>
        if p.status ≠ .succeeded ∧
            (!cfg.faults l && !find && !stop && grants cfg p w.db.subscriptions) then
          settledBooks cfg m p method w
        else booksOf w := by
  intro herror hsettled hstop hgrant
  simp only [dbTransaction, transaction, Prog.atom, Prog.run_act, Prog.run_done]
  cases hc : cfg.faults l with
  | true => cases found <;> simp
  | false =>
    cases hf : find with
    | true =>
      obtain ⟨e, he⟩ := herror (.inl hf)
      rw [if_neg Bool.false_ne_true, booksOf_transact_error he]
      cases found <;> simp
    | false =>
      rw [if_neg Bool.false_ne_true]
      cases hp : found with
      | none =>
        obtain ⟨e, he⟩ := herror (.inr hp)
        exact booksOf_transact_error he
      | some p =>
        by_cases hs : p.status = .succeeded
        · rw [transact, hsettled p hf hp hs]
          simp only [hs, ne_eq, not_true_eq_false, false_and, if_false]
          exact booksOf_promo p w
        · cases hstops : stop with
          | true =>
            obtain ⟨e, w', he⟩ := hstop p hf hp hs hstops
            rw [booksOf_transact_error he]
            simp
          | false =>
            rw [booksOf_grant _ (hgrant p hf hp hs hstops)]
            simp [hs]

theorem exec_webhook_unsettled {yk : String} {obj : List (String × Json)} {d : PaymentDetails}
    {w : World} (hf : cfg.faults (.webhookFind yk) = false)
    (hp : paymentByYooKassaID yk w.db = some p) (hs : p.status ≠ .succeeded)
    (hw : cfg.faults (.webhookSubscription yk) = false) :
    exec (webhookConfirmation cfg yk obj d) w = exec (do
      activateSubscriptionFromPayment cfg ((succeededAt w.now).apply p) (chosenMethod obj d)
      markPromoCodeUsed cfg ((succeededAt w.now).apply p))
      (if !cfg.faults (.webhookMark yk) then marked p w else w) := by
  unfold webhookConfirmation
  simp only [stmt, exec_bind, exec_statement, hf, Bool.false_eq_true, if_false, firstOf, hp, hs,
    exec_get, exec_ignoring, exec_attempt, hw]
  cases cfg.faults (.webhookMark yk) <;>
    cases Db.subscriptionOf _ ((succeededAt w.now).apply p).userID <;>
      simp [exec_bind, writeOf, chosenMethod, marked]

theorem booksOf_webhookConfirmation :
    booksOf ((dbTransaction cfg (.webhookConfirm yk) (webhookConfirmation cfg yk obj d)).run w).2 =
      webhookBooks cfg yk (chosenMethod obj d) w := by
  refine booksOf_confirmation ?_ ?_ ?_ fun p hf hp hs hw => exec_webhook_unsettled hf hp hs hw
  · rintro (hf | hp)
    · exact ⟨.failed, by simp [webhookConfirmation, exec_bind, stmt, hf]⟩
    · cases hf : cfg.faults (.webhookFind yk) <;>
        simp [webhookConfirmation, exec_bind, stmt, hf, firstOf, hp]
  · intro p hf hp hs
    simp [webhookConfirmation, exec_bind, stmt, hf, firstOf, hp, hs]
  · intro p hf hp hs hw
    cases hm : cfg.faults (.webhookMark yk) <;>
      simp [webhookConfirmation, exec_bind, stmt, hf, firstOf, hp, hs, hw, hm]

/-- The error of the mark is returned, so a payment is granted only if it is recorded. -/
theorem booksOf_reconcileConfirmation (payment : Payment) (d : PaymentDetails) (w : World) :
    booksOf ((dbTransaction cfg (.reconcileConfirm payment.id)
      (reconcileConfirmation cfg payment d)).run w).2 =
      reconcileBooks cfg payment.id d.paymentMethodID w := by
  refine booksOf_confirmation ?_ ?_ ?_ ?_
  · rintro (hf | hp)
    · exact ⟨.failed, by simp [reconcileConfirmation, exec_bind, stmt, hf]⟩
    · cases hf : cfg.faults (.reconcileFind payment.id) <;>
        simp [reconcileConfirmation, exec_bind, stmt, hf, firstOf, hp]
  · intro p hf hp hs
    simp [reconcileConfirmation, exec_bind, stmt, hf, firstOf, hp, hs]
  · intro p hf hp hs hm
    exact ⟨.failed, w, by simp [reconcileConfirmation, exec_bind, stmt, hf, firstOf, hp, hs, hm]⟩
  · intro p hf hp hs hm
    simp [reconcileConfirmation, exec_bind, stmt, hf, firstOf, hp, hs, hm, writeOf, marked]

end Transactions

end SettlementBooks
