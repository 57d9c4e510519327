import DrFrakeVpn.ClientEffects
import DrFrakeVpn.SubscriptionValue

/-! # One charge per paid period

While a charge counts, either its payment is stored as pending or the expiry it was sent for is no
longer the stored one; the scheduler relies on the second and never looks at the first. -/
namespace AutoRenewal

open SharedPrograms RecordTables GoValues List
open BackendModels BackendWorld SubscriptionActivation PaymentHandlers RenewalScheduler
open ConfirmationEffects HandlerEffects SchedulerEffects RequestEffects ClientEffects
  SubscriptionValue

variable {cfg : Setup}

def Canceled (yk : String) (w : World) : Prop := w.provider.status yk = some "canceled"

instance (yk : String) (w : World) : Decidable (Canceled yk w) :=
  inferInstanceAs (Decidable (_ = _))

/-- Of two charges for one stored expiry the earlier one was canceled. A canceled payment
stays canceled, so in every state of a run this speaks of the time of the later charge. -/
def OneCharge (w : World) : Prop :=
  w.charges.Pairwise fun c d =>
    c.userID = d.userID → c.expiresAt = d.expiresAt → Canceled c.yooKassaID w

instance (w : World) : Decidable (OneCharge w) := inferInstanceAs (Decidable (List.Pairwise _ _))

inductive Covered (c : Charge) (w : World) : Prop where
  | canceled (h : Canceled c.yooKassaID w)
  | awaited (p : Payment) (hp : p ∈ w.db.payments.rows) (hyk : p.yooKassaID = c.yooKassaID)
      (hu : p.userID = c.userID) (hs : p.status = .pending)
  | extended (s : Subscription) (hs : w.db.subscriptionOf c.userID = some s)
      (he : c.expiresAt < s.expiresAt)

structure Frame (w w' : World) : Prop where
  keeps : Keeps w w'
  charges : w'.charges = w.charges
  owners : ∀ u s, w.db.subscriptionOf u = some s →
    ∃ s', w'.db.subscriptionOf u = some s' ∧ s'.id = s.id

structure Steady (w w' : World) : Prop extends Frame w w' where
  covered : (∀ c ∈ w.charges, c.expiresAt ≤ w.now) → ∀ c ∈ w.charges, Covered c w → Covered c w'

structure Calm (w w' : World) : Prop extends Steady w w' where
  ids : ∀ p ∈ w'.db.payments.rows, ∃ q ∈ w.db.payments.rows, q.yooKassaID = p.yooKassaID

variable {w w' : World}

theorem Frame.canceled (h : Frame w w') (hc : Canceled yk w) : Canceled yk w' :=
  h.keeps.final yk _ final_canceled hc

theorem Frame.trans (h : Frame a b) (h' : Frame b c) : Frame a c where
  keeps := h.keeps.trans h'.keeps
  charges := h'.charges.trans h.charges
  owners u s hs := by
    obtain ⟨t, ht, hid⟩ := h.owners u s hs
    obtain ⟨r, hr, hid'⟩ := h'.owners u t ht
    exact ⟨r, hr, hid'.trans hid⟩

theorem Frame.past (h : Frame w w') (hp : ∀ c ∈ w.charges, c.expiresAt ≤ w.now) :
    ∀ c ∈ w'.charges, c.expiresAt ≤ w'.now := by
  intro c hc
  rw [h.charges] at hc
  exact (hp c hc).trans h.keeps.now

theorem Calm.trans (h : Calm a b) (h' : Calm b c) : Calm a c where
  toFrame := h.toFrame.trans h'.toFrame
  covered hp d hd hcov := by
    have hb := h.covered hp d hd hcov
    rw [← h.charges] at hd
    exact h'.covered (h.toFrame.past hp) d hd hb
  ids p hp := by
    obtain ⟨q, hq, he⟩ := h'.ids p hp
    obtain ⟨r, hr, he'⟩ := h.ids q hq
    exact ⟨r, hr, he'.trans he⟩

theorem calm_of_tables (hk : Keeps w w') (hp : w'.db.payments = w.db.payments)
    (hs : w'.db.subscriptions = w.db.subscriptions) (hc : w'.charges = w.charges) : Calm w w' := by
  have hsub : ∀ u, w'.db.subscriptionOf u = w.db.subscriptionOf u := by
    intro u
    rw [Db.subscriptionOf, hs]
    rfl
  refine ⟨⟨⟨hk, hc, fun u s h => ⟨s, by rw [hsub, h], rfl⟩⟩, ?_⟩, ?_⟩
  · intro _ c _ h
    cases h with
    | canceled h => exact .canceled (hk.final _ _ final_canceled h)
    | awaited p hm hyk hu hst => exact .awaited p (by rw [hp]; exact hm) hyk hu hst
    | extended s h he => exact .extended s (by rw [hsub, h]) he
  · intro p hm
    rw [hp] at hm
    exact ⟨p, hm, rfl⟩

theorem Calm.refl (w : World) : Calm w w := calm_of_tables (.refl w) rfl rfl rfl

theorem calm_of_passes (h : Passes w w') : Calm w w' :=
  calm_of_tables (.of_passes h) (by rw [h.db]) (by rw [h.db]) h.charges

theorem calm_of_quiet (h : Quiet w w') : Calm w w' :=
  calm_of_tables h.keeps h.payments h.subscriptions h.charges

theorem calm_cancelledWhere
    (hq : ∀ p ∈ w.db.payments.rows, q p → Canceled p.yooKassaID w) :
    Calm w (cancelledWhere q w) := by
  have hk : Keeps w (cancelledWhere q w) :=
    withPayments_keeps (payments_of_update (setPaymentStatus_sameOrder .cancelled))
  refine ⟨⟨⟨hk, rfl, fun u s h => ⟨s, h, rfl⟩⟩, ?_⟩, ?_⟩
  · intro _ c _ h
    cases h with
    | canceled h => exact .canceled h
    | extended s h he => exact .extended s h he
    | awaited p hm hyk hu hst =>
      by_cases hqp : q p
      · exact .canceled (hyk ▸ hq p hm hqp)
      · refine .awaited p (w.db.payments.mem_update.mpr ⟨p, hm, ?_⟩) hyk hu hst
        rw [if_neg hqp]
  · intro p hm
    obtain ⟨r, hr, rfl⟩ := w.db.payments.mem_update.mp hm
    refine ⟨r, hr, ?_⟩
    split <;> rfl

variable {p : Payment} {method : String}

theorem lt_grantedRow (hfit : Fitting ⟨w.now, p, method⟩ w) (m : String) :
    w.now < (grantedRow w.now p m w.db).expiresAt := by
  unfold grantedRow
  cases hs : w.db.subscriptionOf p.userID with
  | some sub => exact lt_newExpiry p.plan_priced (hfit sub hs)
  | none =>
    have hperiod := period_pos p.plan_priced
    simp only [freshRow, GoTime.addDate_days]
    omega

variable {s : Subscription}

theorem grantedRow_id (h : db.subscriptionOf p.userID = some s) :
    (grantedRow now p m db).id = s.id := by
  simp only [grantedRow, h]
  rfl

theorem calm_confirmed (hp : p ∈ w.db.payments.rows)
    (hfit : p.status ≠ .succeeded → Fitting ⟨w.now, p, method⟩ w) :
    Calm w (confirmed cfg p method w) := by
  have hsub := confirmed_subscriptionOf cfg p method w
  have hpay := confirmed_payments cfg p method w
  have hk : Keeps w (confirmed cfg p method w) := confirmed_keeps p method w
  by_cases hst : p.status = .succeeded
  · simp only [hst, ne_eq, not_true_eq_false, false_and, if_false] at hsub
    rw [if_pos hst] at hpay
    refine ⟨⟨⟨hk, by simp, fun u s h => ⟨s, by rw [hsub, h], rfl⟩⟩, ?_⟩, ?_⟩
    · intro _ c _ h
      cases h with
      | canceled h => exact .canceled (hk.final _ _ final_canceled h)
      | awaited q hq hyk hu hs => exact .awaited q (by rw [hpay]; exact hq) hyk hu hs
      | extended s h he => exact .extended s (by rw [hsub, h]) he
    · intro q hq
      rw [hpay] at hq
      exact ⟨q, hq, rfl⟩
  · simp only [hst, ne_eq, not_false_eq_true, true_and] at hsub
    rw [if_neg hst] at hpay
    have hnew := lt_grantedRow (hfit hst) (keptMethod cfg method)
    refine ⟨⟨⟨hk, by simp, ?_⟩, ?_⟩, ?_⟩
    · intro u s h
      by_cases hu : u = p.userID
      · subst hu
        exact ⟨_, by rw [hsub, if_pos rfl], grantedRow_id h⟩
      · exact ⟨s, by rw [hsub, if_neg hu, h], rfl⟩
    · intro hpast c hc h
      by_cases hu : c.userID = p.userID
      · have hpastc := hpast c hc
        exact .extended _ (by rw [hsub, if_pos hu]) (by omega)
      · cases h with
        | canceled h => exact .canceled (hk.final _ _ final_canceled h)
        | extended s h he => exact .extended s (by rw [hsub, if_neg hu, h]) he
        | awaited q hq hyk hqu hs =>
          have hne : ¬ q.id = p.id := by
            intro hid
            have hqp := w.db.payments.id_injective hq hp hid
            exact hu (by rw [← hqu, hqp])
          refine .awaited q ?_ hyk hqu hs
          rw [hpay]
          exact w.db.payments.mem_update.mpr ⟨q, hq, by simp [hne]⟩
    · intro q hq
      rw [hpay] at hq
      obtain ⟨r, hr, rfl⟩ := w.db.payments.mem_update.mp hq
      refine ⟨r, hr, ?_⟩
      split <;> rfl

theorem calm_expire (now : ℤ) (users : List ℕ) (w : World) :
    Calm w (expireSubscriptions now users w).2 := by
  have hk := Keeps.refl w
  have hsub : ∀ u, (expireSubscriptions now users w).2.db.subscriptionOf u =
      (w.db.subscriptionOf u).map fun s =>
        if isExpirable now users s then markedExpired.apply s else s :=
    Db.subscriptionOf_update w.db _ _
  refine ⟨⟨⟨⟨hk.payments, hk.promos, hk.final, hk.now⟩, rfl, ?_⟩, ?_⟩, fun p hp => ⟨p, hp, rfl⟩⟩
  · intro u s h
    refine ⟨_, by rw [hsub, h]; rfl, ?_⟩
    dsimp only
    split <;> rfl
  · intro _ c _ h
    cases h with
    | canceled h => exact .canceled h
    | awaited p hp hyk hu hs => exact .awaited p hp hyk hu hs
    | extended s h he =>
      refine .extended _ (by rw [hsub, h]; rfl) ?_
      dsimp only
      split
      · exact he
      · exact he

def nextPayment? (w : World) : Option String :=
  w.provider.answers.head?.bind fun a => (newPaymentOf a).map Prod.fst

/-- A run starts only when no due subscription has a payment left to settle, the provider
answers a charge with a payment that is not stored yet, and a confirmed change of plan fits
in a duration. -/
def Orderly (l : Stmt) (w : World) : Prop :=
  match l with
  | .renewalSelect => ∀ s ∈ w.db.subscriptions.rows, isDue w.now s = true →
      ∀ p ∈ w.db.payments.rows, p.userID = s.userID → p.status = .pending →
        Canceled p.yooKassaID w
  | .renewalCharge _ => ∃ id ∈ nextPayment? w, ∀ p ∈ w.db.payments.rows, p.yooKassaID ≠ id
  | .webhookConfirm _ | .reconcileConfirm _ => ∀ p ∈ w.db.payments.rows,
      p.status ≠ .succeeded → Fitting ⟨w.now, p, ""⟩ w
  | _ => True

instance (l : Stmt) (w : World) : Decidable (Orderly l w) := by
  unfold Orderly
  split <;> infer_instance

theorem nextPayment_some {id} (h : id ∈ nextPayment? w) :
    ∃ a rest st, w.provider.answers = a :: rest ∧ newPaymentOf a = some (id, st) := by
  unfold nextPayment? at h
  cases ha : w.provider.answers with
  | nil => simp [ha] at h
  | cons a rest =>
    simp only [ha, head?_cons, Option.bind_some, Option.mem_def, Option.map_eq_some_iff] at h
    obtain ⟨⟨new, st⟩, hn, rfl⟩ := h
    exact ⟨a, rest, st, rfl, hn⟩

def isConfirming : Request → Bool
  | .webhook _ | .reconcile _ => true
  | _ => false

def confirmingLabel : Stmt → Bool
  | .fetchPayment _ | .webhookCancel _ | .webhookConfirm _ | .reconcileSelect _
  | .reconcileConfirm _ | .reconcileCancel _ => true
  | _ => false

theorem confirmingLabel_of_owns (hr : isConfirming r) (hl : r.owns l) :
    confirmingLabel l := by
  cases r with
  | approve | renewals | create => cases hr
  | webhook | reconcile =>
    cases l with
    | fetchPayment | webhookCancel | webhookConfirm | reconcileSelect | reconcileConfirm
    | reconcileCancel => rfl
    | _ => cases hl

theorem effect_calm (hl : confirmingLabel l) (ho : Orderly l w)
    (h : Effect cfg w l w' n) : Calm w w' := by
  cases h with
  | quiet _ _ hq => exact calm_of_quiet hq
  | check | ordered | stored | free | approve | charge | chargeLost | extend | renewalStored
  | expire => cases hl
  | confirm p method hlp _ hp _ =>
    refine calm_confirmed hp fun hs => ?_
    rcases hlp with rfl | rfl
    · exact ho p hp hs
    · exact ho p hp hs
  | cancelByEvent yk _ hs =>
    refine calm_cancelledWhere fun p _ hq => ?_
    have hyk : p.yooKassaID = yk := by simpa using hq
    rw [hyk]
    exact hs
  | cancelPending r _ hr hs =>
    refine calm_cancelledWhere fun p hp hq => ?_
    have hid : p.id = r.id ∧ p.status = .pending := by simpa using hq
    have hpr : p = r := w.db.payments.id_injective hp hr hid.1
    rw [hpr]
    exact hs

/-- A selected subscription: its charges that count were sent for expiries before `t`. -/
structure Chosen (s : Subscription) (t : ℤ) (w : World) : Prop where
  earlier : ∀ c ∈ w.charges, c.userID = s.userID → Canceled c.yooKassaID w ∨ c.expiresAt < t
  due : s.expiresAt ≤ w.now
  owned : ∃ r, w.db.subscriptionOf s.userID = some r ∧ r.id = s.id

structure Ledger (inProgress : Option Charge) (rest : List Subscription) (w : World) : Prop where
  one : OneCharge w
  past : ∀ c ∈ w.charges, c.expiresAt ≤ w.now
  covered : ∀ c ∈ w.charges, some c ≠ inProgress → Covered c w
  chosen : ∀ s ∈ rest, Chosen s s.expiresAt w

theorem OneCharge.frame (h : Frame w w') (hw : OneCharge w) : OneCharge w' := by
  rw [OneCharge, h.charges]
  exact hw.imp fun himp hu he => h.canceled (himp hu he)

theorem Chosen.frame (h : Frame w w') (hs : Chosen s t w) : Chosen s t w' where
  earlier c hc hu := by
    rw [h.charges] at hc
    exact (hs.earlier c hc hu).imp_left h.canceled
  due := hs.due.trans h.keeps.now
  owned := by
    obtain ⟨r, hr, hid⟩ := hs.owned
    obtain ⟨r', hr', hid'⟩ := h.owners _ r hr
    exact ⟨r', hr', hid'.trans hid⟩

section Steps

variable {o : Option Charge} {rest : List Subscription} {w w' : World}

theorem Ledger.steady (h : Steady w w') (hw : Ledger o rest w) : Ledger o rest w' where
  one := hw.one.frame h.toFrame
  past := h.toFrame.past hw.past
  covered c hc ho := by
    rw [h.charges] at hc
    exact h.covered hw.past c hc (hw.covered c hc ho)
  chosen s hs := (hw.chosen s hs).frame h.toFrame

variable {c : Charge}

theorem Ledger.close (hw : Ledger (some c) rest w) (hc : Covered c w) :
    Ledger none rest w where
  one := hw.one
  past := hw.past
  chosen := hw.chosen
  covered d hd _ := by
    by_cases hdc : d = c
    · rw [hdc]
      exact hc
    · exact hw.covered d hd fun he => hdc (Option.some.inj he)

theorem Ledger.tail (hw : Ledger o (s :: rest) w) : Ledger o rest w :=
  ⟨hw.one, hw.past, hw.covered, fun r hr => hw.chosen r (mem_cons_of_mem s hr)⟩

theorem ledger_select (hw : Ledger none [] w) (ho : Orderly .renewalSelect w)
    (hnow : now ≤ w.now) : Ledger none (w.db.subscriptions.select (isDue now)) w := by
  refine ⟨hw.one, hw.past, hw.covered, ?_⟩
  intro s hs
  obtain ⟨hm, hd⟩ := mem_filter.mp hs
  have howner := Db.subscriptionOf_some_iff.mpr ⟨hm, rfl⟩
  simp only [isDue, Bool.and_eq_true, decide_eq_true_eq] at hd
  refine ⟨?_, hd.2.trans hnow, s, howner, rfl⟩
  intro c hc hu
  cases hw.covered c hc (by simp) with
  | canceled h => exact .inl h
  | awaited p hp hyk hpu hps =>
    have hdue : isDue w.now s := by
      simp only [isDue, Bool.and_eq_true, decide_eq_true_eq]
      exact ⟨hd.1, hd.2.trans hnow⟩
    have hcan := ho s hm hdue p hp (hpu.trans hu) hps
    rw [hyk] at hcan
    exact .inl hcan
  | extended s' hs' he =>
    rw [hu, howner] at hs'
    cases hs'
    exact .inr he

theorem ledger_charge (answers : List HttpResult) {id st} (hw : Ledger none (s :: rest) w)
    (hne : ∀ r ∈ rest, r.userID ≠ s.userID) (hn : newPaymentOf a = some (id, st)) :
    Ledger (some ⟨s.userID, s.expiresAt, id⟩) rest (logCharge s a (withProvider a answers w)) ∧
      Chosen s (s.expiresAt + 1) (logCharge s a (withProvider a answers w)) := by
  have hcan : ∀ {yk}, Canceled yk w → Canceled yk (logCharge s a (withProvider a answers w)) :=
    fun h => register_final _ a answers h
  have hcharges : (logCharge s a (withProvider a answers w)).charges =
      w.charges ++ [⟨s.userID, s.expiresAt, id⟩] := by
    simp [logCharge, withProvider, hn]
  have hs := hw.chosen s mem_cons_self
  refine ⟨⟨?_, ?_, ?_, ?_⟩, ?_, hs.due, hs.owned⟩
  · rw [OneCharge, hcharges, pairwise_append]
    refine ⟨hw.one.imp fun himp hu he => hcan (himp hu he), pairwise_singleton _ _, ?_⟩
    intro c hc d hd hu he
    cases mem_singleton.mp hd
    rcases hs.earlier c hc hu with h | h
    · exact hcan h
    · exact absurd he h.ne
  · intro c hc
    rw [hcharges, mem_append, mem_singleton] at hc
    rcases hc with hc | rfl
    · exact hw.past c hc
    · exact hs.due
  · intro c hc hnew
    rw [hcharges, mem_append, mem_singleton] at hc
    rcases hc with hc | rfl
    · cases hw.covered c hc (by simp) with
      | canceled h => exact .canceled (hcan h)
      | awaited p hp hyk hu hst => exact .awaited p hp hyk hu hst
      | extended s' hs' he => exact .extended s' hs' he
    · exact absurd rfl hnew
  · intro r hr
    have hr' := hw.chosen r (mem_cons_of_mem s hr)
    refine ⟨?_, hr'.due, hr'.owned⟩
    intro c hc hu
    rw [hcharges, mem_append, mem_singleton] at hc
    rcases hc with hc | rfl
    · exact (hr'.earlier c hc hu).imp_left hcan
    · exact absurd hu.symm (hne r hr)
  · intro c hc hu
    rw [hcharges, mem_append, mem_singleton] at hc
    rcases hc with hc | rfl
    · rcases hs.earlier c hc hu with h | h
      · exact .inl (hcan h)
      · exact .inr (by omega)
    · exact .inr (by dsimp only; omega)

theorem ledger_extend (hw : Ledger (some c) rest w) (hs : Chosen s (s.expiresAt + 1) w)
    (hu : c.userID = s.userID) (he : s.expiresAt < expiry) :
    Ledger none rest { w with db := updateSubscription s.id (extendedTo expiry) w.db } := by
  obtain ⟨r, hr, hid⟩ := hs.owned
  have hsub := updateSubscription_subscriptionOf hr (extendedTo expiry)
  rw [hid] at hsub
  have hframe : Frame w { w with db := updateSubscription s.id (extendedTo expiry) w.db } := by
    have hk := Keeps.refl w
    refine ⟨⟨hk.payments, hk.promos, hk.final, hk.now⟩, rfl, ?_⟩
    intro u t ht
    by_cases hut : u = s.userID
    · subst hut
      rw [hr] at ht
      cases ht
      exact ⟨(extendedTo expiry).apply r, by rw [hsub, if_pos rfl], rfl⟩
    · exact ⟨t, by rw [hsub, if_neg hut, ht], rfl⟩
  refine ⟨hw.one.frame hframe, hw.past, ?_, fun t ht => (hw.chosen t ht).frame hframe⟩
  intro d hd _
  by_cases hdu : d.userID = s.userID
  · rcases hs.earlier d hd hdu with h | h
    · exact .canceled h
    · refine .extended ((extendedTo expiry).apply r) (by rw [hsub, if_pos hdu]) ?_
      change d.expiresAt < expiry
      omega
  · have hdc : some d ≠ some c := by
      intro h
      cases h
      exact hdu hu
    cases hw.covered d hd hdc with
    | canceled h => exact .canceled h
    | awaited p hp hyk hpu hst => exact .awaited p hp hyk hpu hst
    | extended t ht h => exact .extended t (by rw [hsub, if_neg hdu, ht]) h

variable (mk : ℕ → Payment)

theorem steady_store (w : World) : Steady w (createPaymentOf mk w).2 := by
  unfold createPaymentOf
  cases ht : w.db.payments.insert mk with
  | none => exact (Calm.refl w).toSteady
  | some t =>
    have hk : Keeps w (withPayments t w) := withPayments_keeps (payments_of_insert ht)
    refine ⟨⟨hk, rfl, fun u s h => ⟨s, h, rfl⟩⟩, ?_⟩
    intro _ c _ h
    cases h with
    | canceled h => exact .canceled h
    | extended s h he => exact .extended s h he
    | awaited p hp hyk hu hs =>
      refine .awaited p ?_ hyk hu hs
      rw [(w.db.payments.insert_some ht).1]
      exact mem_append_left _ hp

theorem covered_store (hid : ∀ i, (mk i).id = i) (hyk : ∀ i, (mk i).yooKassaID = c.yooKassaID)
    (hu : ∀ i, (mk i).userID = c.userID) (hs : ∀ i, (mk i).status = .pending)
    (hfresh : ∀ p ∈ w.db.payments.rows, p.yooKassaID ≠ c.yooKassaID) :
    Covered c (createPaymentOf mk w).2 := by
  have hkey : ∀ p ∈ w.db.payments.rows, Record.key p ≠ Record.key (mk w.db.payments.seq) := by
    intro p hp he
    exact hfresh p hp (he.trans (hyk _))
  obtain ⟨t, ht⟩ := w.db.payments.insert_isSome (hid _) hkey
  simp only [createPaymentOf, ht]
  refine .awaited (mk w.db.payments.seq) ?_ (hyk _) (hu _) (hs _)
  rw [(w.db.payments.insert_some ht).1]
  exact mem_append_right _ mem_cons_self

end Steps

def Billed (w : World) (_ : Stmt) (w' : World) (_ : Option Stmt) : Prop :=
  Keeps w w' ∧ OneCharge w'

abbrev Billing {α : Type} (Q : α → World → Prop) (p : Handler α) (w : World) : Prop :=
  p.Ensures Calm Orderly Billed Q w

section Programs

variable {o : Option Charge} {rest : List Subscription} {w₀ : World}

theorem billing_steady {α : Type} (h : cfg.Reliable) {f : World → Except DbError α × World}
    (hf : ∀ w, Steady w (f w).2) (hw : Ledger o rest w₀) :
    Billing (fun _ => Ledger o rest) (exec1 cfg l f) w₀ := by
  rw [exec1_reliable h]
  refine .atom fun w hcalm _ => ?_
  have hw' := (hw.steady hcalm.toSteady).steady (hf w)
  exact ⟨fun _ => ⟨(hf w).keeps, hw'.one⟩, hw'⟩

theorem recordCharge_billing (h : cfg.Reliable)
    (hinfo : 0 < info.durationDays) (hyk : asString (lookup ykResp "id") = c.yooKassaID)
    (hu : c.userID = s.userID) (hw : Ledger (some c) rest w₀) (hs : Chosen s (s.expiresAt + 1) w₀)
    (hfresh : ∀ p ∈ w₀.db.payments.rows, p.yooKassaID ≠ c.yooKassaID) :
    Billing (fun _ => Ledger none rest) (recordCharge cfg s priced info ykResp) w₀ := by
  have hfresh' : ∀ w, Calm w₀ w → ∀ p ∈ w.db.payments.rows, p.yooKassaID ≠ c.yooKassaID := by
    intro w hcalm p hp
    obtain ⟨q, hq, he⟩ := hcalm.ids p hp
    exact he ▸ hfresh q hq
  refine Prog.Ensures.bind (Q := fun _ w => Calm w₀ w) (.atom fun w hcalm _ => ?_)
    fun now w hcalm => ?_
  · exact ⟨fun _ => ⟨.refl w, (hw.steady hcalm.toSteady).one⟩, hcalm⟩
  split
  · -- paid at once: the expiry moves on before the payment is stored
    refine Prog.Ensures.bind (Q := fun _ => Ledger none rest) ?_ fun _ w₁ hw₁ => ?_
    · rw [exec1_reliable h]
      refine .atom fun w₁ hcalm₁ _ => ?_
      have hc := hcalm.trans hcalm₁
      have hext := ledger_extend (hw.steady hc.toSteady) (hs.frame hc.toFrame) hu
        (lt_renewedExpiry now s.expiresAt hinfo)
      have hk := Keeps.refl w₁
      exact ⟨fun _ => ⟨⟨hk.payments, hk.promos, hk.final, hk.now⟩, hext.one⟩, hext⟩
    · exact (billing_steady h (fun w => steady_store _ w) hw₁).bind fun _ _ hw₂ => .done hw₂
  · refine Prog.Ensures.bind ?_ fun _ _ hw₁ => .done hw₁
    rw [exec1_reliable h]
    refine .atom fun w₁ hcalm₁ _ => ?_
    have hc := hcalm.trans hcalm₁
    have hstore := steady_store (renewalRow s priced info.amount
      (asString (lookup ykResp "id")) .pending none w₁.now) w₁
    have hcov := covered_store (renewalRow s priced info.amount
      (asString (lookup ykResp "id")) .pending none w₁.now) (fun _ => rfl) (fun _ => hyk)
      (fun _ => hu.symm) (fun _ => rfl) (hfresh' w₁ hc)
    have hdone := ((hw.steady hc.toSteady).steady hstore).close hcov
    exact ⟨fun _ => ⟨hstore.keeps, hdone.one⟩, hdone⟩

theorem chargeAutoRenewal_billing (h : cfg.Reliable) (hne : ∀ r ∈ rest, r.userID ≠ s.userID)
    (hw : Ledger none (s :: rest) w₀) :
    Billing (fun _ => Ledger none rest) (chargeAutoRenewal cfg s) w₀ := by
  unfold chargeAutoRenewal
  split
  · exact .done hw.tail
  · next info hp =>
    have hfirst : ∀ w, Steady w (firstOf (fun db => db.users.byId s.userID) w).2 := by
      intro w
      unfold firstOf
      split <;> exact (Calm.refl w).toSteady
    refine (billing_steady h hfirst hw).bind fun user w₁ hw₁ => ?_
    cases user with
    | error e => exact .done hw₁.tail
    | ok user =>
      refine Prog.Ensures.bind (Q := fun a w => ∃ id st, newPaymentOf a = some (id, st) ∧
          Ledger (some ⟨s.userID, s.expiresAt, id⟩) rest w ∧ Chosen s (s.expiresAt + 1) w ∧
          ∀ p ∈ w.db.payments.rows, p.yooKassaID ≠ id) ?_ ?_
      · refine .atom fun w hcalm ho => ?_
        obtain ⟨id, hnext, hfresh⟩ := ho
        obtain ⟨a, answers, st, ha, hn⟩ := nextPayment_some hnext
        have hcharge := ledger_charge answers (hw₁.steady hcalm.toSteady) hne hn
        have hk := withProvider_keeps a answers w
        simp only [ha]
        exact ⟨fun _ => ⟨⟨hk.payments, hk.promos, hk.final, hk.now⟩, hcharge.1.one⟩,
          id, st, hn, hcharge.1, hcharge.2, hfresh⟩
      · rintro a w ⟨id, st, hn, hled, hs, hfresh⟩
        obtain ⟨code, data, rfl, hcode, hid, _⟩ := newPaymentOf_some hn
        have haccepted : ¬ (code ≠ 200 ∧ code ≠ 201) := by omega
        have hdays : 0 < info.durationDays := by
          have hpriced := priced_of_ne_free (priced_ne_free hp)
          rw [hpriced.listed] at hp
          cases hp
          exact hpriced.duration
        simp only [if_neg haccepted]
        exact (recordCharge_billing h hdays hid rfl hled hs hfresh).bind fun _ _ hw₂ => .done hw₂

theorem chargeEach_billing (h : cfg.Reliable) (hd : (subs.map Subscription.userID).Nodup)
    (hw : Ledger none subs w₀) : Billing (fun _ => Ledger none []) (chargeEach cfg subs) w₀ := by
  induction subs generalizing w₀ with
  | nil => exact .done hw
  | cons s subs ih =>
    obtain ⟨hs, hd⟩ := nodup_cons.mp hd
    have hne : ∀ r ∈ subs, r.userID ≠ s.userID := by
      intro r hr he
      exact hs (he ▸ mem_map_of_mem hr)
    exact (chargeAutoRenewal_billing h hne hw).bind fun _ _ hw₁ => ih hd hw₁

theorem nodup_select (t : Table Subscription) (q : Subscription → Bool) :
    ((t.select q).map Subscription.userID).Nodup :=
  t.valid.2.2.sublist (filter_sublist.map _)

theorem chargeDue_billing (h : cfg.Reliable) (hnow : now ≤ w₀.now) (hw : Ledger none [] w₀) :
    Billing (fun _ => Ledger none []) (chargeDue cfg now) w₀ := by
  unfold chargeDue
  split
  · refine Prog.Ensures.bind (Q := fun r w => ∃ subs, r = .ok subs ∧ Ledger none subs w ∧
      (subs.map Subscription.userID).Nodup) ?_ ?_
    · rw [exec1_reliable h]
      refine .atom fun w hcalm ho => ?_
      have hw' := hw.steady hcalm.toSteady
      exact ⟨fun _ => ⟨.refl w, hw'.one⟩, _, rfl,
        ledger_select hw' ho (hnow.trans hcalm.keeps.now), nodup_select _ _⟩
    · rintro r w ⟨subs, rfl, hled, hd⟩
      exact chargeEach_billing h hd hled
  · exact .done hw

theorem expireLapsed_billing (now : ℤ) (hw : Ledger none [] w₀) :
    Billing (fun _ => Ledger none []) (expireLapsed cfg now) w₀ := by
  have hm : Maintains cfg .expiry (expireLapsed cfg now) := maintains_expireLapsed now
  refine Prog.Obeys.ensures (fun _ _ hc => hc.keeps) (fun _ _ _ => trivial)
    (fun _ _ hc hI => hI.steady hc.toSteady) ?_ hm.only (hm.obeys w₀) hw
  intro w l w' n hl he hI
  have hcalm : Calm w w' := by
    cases he with
    | quiet _ _ hq => exact calm_of_quiet hq
    | expire now users => exact calm_expire now users w
    | confirm p method hlp =>
      rcases hlp with rfl | rfl
      · cases hl
      · cases hl
    | _ => cases hl
  have hI' := hI.steady hcalm.toSteady
  exact ⟨hI', fun _ => ⟨hcalm.keeps, hI'.one⟩⟩

theorem scheduler_billing (h : cfg.Reliable) (runs : ℕ) (hw : Ledger none [] w₀) :
    Billing (fun _ => Ledger none []) (runAutoRenewalScheduler cfg runs) w₀ := by
  induction runs generalizing w₀ with
  | zero => exact .done hw
  | succ runs ih =>
    refine Prog.Ensures.bind ?_ fun _ _ hw₁ => ih hw₁
    refine Prog.Ensures.bind (Q := fun now w => now ≤ w.now ∧ Ledger none [] w) ?_ ?_
    · refine .atom fun w hcalm _ => ?_
      have hw' := hw.steady hcalm.toSteady
      exact ⟨fun _ => ⟨.refl w, hw'.one⟩, le_refl _, hw'⟩
    · rintro now w ⟨hnow, hw₁⟩
      exact (chargeDue_billing h hnow hw₁).bind fun _ _ hw₂ => expireLapsed_billing now hw₂

end Programs

variable (cfg) in
def renewalDiscipline : Discipline Passes (fun l _ w => Orderly l w) where
  rely
    | 0 => Calm
    | _ + 1 => Keeps
  perm := Orderly
  G
    | 0 => Billed
    | _ + 1 => fun w l w' n => confirmingLabel l = true ∧ Orderly l w ∧ Effect cfg w l w' n
  rely_refl
    | 0 => Calm.refl
    | _ + 1 => Keeps.refl
  rely_trans
    | 0 => Calm.trans
    | _ + 1 => Keeps.trans
  perm_of_allow _ _ _ h := h
  env_rely
    | 0, _, _ => calm_of_passes
    | _ + 1, _, _ => Keeps.of_passes
  step_rely
    | 0, 0, _, _, _, _, hne, _ => absurd rfl hne
    | 0, _ + 1, _, _, _, _, _, h => h.1
    | _ + 1, 0, _, _, _, _, _, h => effect_calm h.1 h.2.1 h.2.2
    | _ + 1, _ + 1, _, _, _, _, _, h => h.2.2.keeps

theorem renewals_pool (h : cfg.Reliable) (runs : ℕ)
    (hr : ∀ r ∈ requests, isConfirming r) (hw : Ledger none [] w) :
    (renewalDiscipline cfg).Pool (pool cfg (.renewals runs :: requests) w) := by
  intro i p hp
  cases i with
  | zero =>
    cases hp
    exact (scheduler_billing h runs hw).obeys
  | succ i =>
    obtain ⟨r, hm, rfl⟩ := mem_map.mp (mem_of_getElem? (l := requests.map _) hp)
    have hobeys : (r.program cfg).Obeys Keeps Orderly (Effect cfg) w :=
      (r.program_obeys h w).mono (fun _ _ hk => hk) (fun _ _ _ => trivial) fun _ _ _ _ he => he
    have hlabels : (r.program cfg).Only _ :=
      r.program_only.mono fun l hl => confirmingLabel_of_owns (hr r hm) hl
    exact hobeys.permitted.only hlabels

/-- Runs of the scheduler, with webhooks and reconciliations in between. -/
theorem one_charge_per_period (h : cfg.Reliable) (runs : ℕ) {requests : List Request}
    (hr : ∀ r ∈ requests, isConfirming r = true) {w : World} (hw : w.charges = [])
    {c : Config World Stmt} (he : Execution Passes (fun l _ w => Orderly l w)
      (pool cfg (.renewals runs :: requests) w) c) : OneCharge c.shared := by
  have hstart : Ledger none [] w := by
    refine ⟨?_, ?_, ?_, ?_⟩
    · rw [OneCharge, hw]
      exact .nil
    · simp [hw]
    · simp [hw]
    · simp
  refine ((renewalDiscipline cfg).execution_invariant (J := fun _ w => OneCharge w) ?_ ?_
    (renewals_pool h runs hr hstart) hstart.one he).2
  · intro ls i w l w' n hone _ ha hg
    cases i with
    | zero => exact hg.2
    | succ i => exact hone.frame (effect_calm hg.1 hg.2.1 hg.2.2).toFrame
  · intro ls w w' hone hp
    exact hone.frame (calm_of_passes hp).toFrame

def later (d : ℕ) (w : World) : World := { w with now := w.now + d }

theorem passes_later (d : ℕ) : Passes w (later d w) where
  db := rfl
  remote := rfl
  activations := rfl
  charges := rfl
  now := by simp [later]
  status _ _ h := .inl h

def paidAnswer (id : String) : HttpResult :=
  .response 200 (some (.obj [("id", .str id), ("status", .str "succeeded")]))

def lapsedWorld (answers : List HttpResult) : World :=
  .start { Db.empty with
    users := ⟨[⟨7, "a@example.org"⟩], 8, User.valid_one _⟩
    subscriptions := ⟨[⟨1, 7, .basic, .active, 0, true, "card"⟩], 2, by decide⟩ } 0
    (.answering (fun _ => none) answers)

def secondRun (answers : List HttpResult) (steps delay : ℕ) : Config World Stmt :=
  let first := (pool (.standard "1") [.renewals 2] (lapsedWorld answers)).runSchedule
    (replicate steps 0)
  ⟨first.threads, later delay first.shared⟩

theorem secondRun_execution (allow : Guard World Stmt) (answers : List HttpResult)
    (steps delay : ℕ) (order : List ℕ)
    (hfirst : ScheduleAllowed allow (pool (.standard "1") [.renewals 2] (lapsedWorld answers))
      (replicate steps 0))
    (hsecond : ScheduleAllowed allow (secondRun answers steps delay) order) :
    Execution Passes allow (pool (.standard "1") [.renewals 2] (lapsedWorld answers))
      ((secondRun answers steps delay).runSchedule order) :=
  ((runSchedule_execution _ _ hfirst).trans
    (environment_execution _ (passes_later delay))).trans (runSchedule_execution _ _ hsecond)

/-- The provider has not decided about the first charge when the next hourly run sends
another one for the same period. -/
theorem pending_charge_is_repeated :
    (Setup.standard "1").Reliable ∧
      ∃ c, Execution Passes Unguarded (pool (.standard "1") [.renewals 2]
        (lapsedWorld [createdAnswer "pay-1", createdAnswer "pay-2"])) c ∧ ¬ OneCharge c.shared :=
  ⟨Setup.standard_reliable "1", _, secondRun_execution _ _ 8 3600000000000 [0, 0, 0, 0]
    (schedule_unguarded _ _) (schedule_unguarded _ _), by decide +kernel⟩

/-- The first charge is paid at once, and the next one is for the next period. -/
theorem paid_period_is_charged_once :
    ∃ c, Execution Passes (fun l _ w => Orderly l w) (pool (.standard "1") [.renewals 2]
        (lapsedWorld [paidAnswer "pay-1", createdAnswer "pay-2"])) c ∧
      c.shared.charges.map Charge.yooKassaID = ["pay-1", "pay-2"] ∧ OneCharge c.shared := by
  have hrun := secondRun_execution (fun l _ w => Orderly l w)
    [paidAnswer "pay-1", createdAnswer "pay-2"] 9 2764800000000000 [0, 0, 0, 0]
    (by decide +kernel) (by decide +kernel)
  exact ⟨_, hrun, by decide +kernel,
    one_charge_per_period (Setup.standard_reliable "1") 2 (by decide) rfl hrun⟩

end AutoRenewal
