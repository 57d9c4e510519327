import DrFrakeVpn.AccountHandlers
import DrFrakeVpn.PaymentCreation

/-! # Automatic renewal and the saved card

Every handler that writes subscriptions, in any order and with any failures, keeps "who
renews automatically has a card", apart from `SetAutoRenew`, which looks at no card. -/
namespace SavedCards

open SharedPrograms FaultyTransactions RecordTables GoValues Prog
open BackendModels BackendWorld SubscriptionActivation PaymentHandlers PaymentCreation
open RenewalScheduler RoutingProfiles AccountHandlers

def hasCardIfRenewing (s : Subscription) : Prop := s.autoRenew = true → s.paymentMethodID ≠ ""

instance (s : Subscription) : Decidable (hasCardIfRenewing s) :=
  inferInstanceAs (Decidable (_ → _))

def Carded (db : Db) : Prop := ∀ s ∈ db.subscriptions.rows, hasCardIfRenewing s

instance (db : Db) : Decidable (Carded db) :=
  inferInstanceAs (Decidable (∀ s ∈ db.subscriptions.rows, _))

theorem card_of_not_renewing (h : s.autoRenew = false) : hasCardIfRenewing s := by
  intro hr
  rw [h] at hr
  cases hr

variable {db : Db} {db' : Db}

theorem carded_of_eq (he : db'.subscriptions = db.subscriptions) (h : Carded db) : Carded db' := by
  rwa [Carded, he]

theorem carded_update (hf : ∀ s, hasCardIfRenewing s → hasCardIfRenewing (f.apply s))
    (h : Carded db) : Carded { db with subscriptions := db.subscriptions.update q f } := by
  intro s hs
  obtain ⟨r, hr, rfl⟩ := (Table.mem_update _).mp hs
  split
  · exact hf r (h r hr)
  · exact h r hr

theorem carded_create (hmk : ∀ n, hasCardIfRenewing (mk n))
    (hc : createSubscription mk db = some db') (h : Carded db) : Carded db' := by
  obtain ⟨t, ht, rfl⟩ := Option.map_eq_some_iff.mp hc
  intro s hs
  rw [show ({ db with subscriptions := t } : Db).subscriptions = t from rfl,
    (db.subscriptions.insert_some ht).1] at hs
  rcases List.mem_append.mp hs with hs | hs
  · exact h s hs
  · rw [List.mem_singleton.mp hs]
    exact hmk _

theorem carded_save {found row} (hrow : ∀ n, hasCardIfRenewing (row n))
    (hs : saveSubscription found row db = some db') (h : Carded db) : Carded db' := by
  cases found with
  | none => exact carded_create hrow hs h
  | some sub =>
    obtain ⟨t, ht, rfl⟩ := Option.map_eq_some_iff.mp hs
    intro s hmem
    rw [show ({ db with subscriptions := t } : Db).subscriptions = t from rfl,
      (db.subscriptions.replace_some ht).1] at hmem
    obtain ⟨r, hr, rfl⟩ := List.mem_map.mp hmem
    split
    · exact hrow _
    · exact h r hr

variable (plan : PlanType)

theorem activatedRow_carded (method : String) (expiry : ℤ) (s : Subscription) :
    hasCardIfRenewing ((activatedRow plan method expiry).apply s) := by
  intro h
  have hm : method ≠ "" := by
    simp only [activatedRow, Bool.and_eq_true, decide_eq_true_eq] at h
    exact h.2
  simp [activatedRow, hm]

variable (userID : ℕ) (now : ℤ)

theorem freshRow_carded (method : String) (id : ℕ) :
    hasCardIfRenewing (freshRow now plan userID method id) := by
  intro h
  simp only [freshRow, Bool.and_eq_true, decide_eq_true_eq] at h
  exact h.2

/-- The program keeps the invariant, from every state and with every failure. -/
abbrev KeepsCards {α : Type} (p : Handler α) : Prop :=
  p.Triple (fun w => Carded w.db) fun _ w => Carded w.db

variable {cfg : Setup} {α β : Type}

theorem KeepsCards.done (a : α) : KeepsCards (.done a : Handler α) :=
  Prog.Triple.done fun _ h => h

variable {p : Handler α}

theorem KeepsCards.bind {k : α → Handler β} (hp : KeepsCards p) (hk : ∀ a, KeepsCards (k a)) :
    KeepsCards (p >>= k) := Prog.Triple.bind hp hk

theorem KeepsCards.forget (hp : KeepsCards p) : KeepsCards p.forget :=
  hp.bind fun _ => .done _

variable {l : Stmt} {f : World → Except DbError α × World}

theorem keepsCards_exec1 (hf : ∀ w, Carded w.db → Carded (f w).2.db) : KeepsCards (exec1 cfg l f) :=
  triple_single (fun _ h => h) hf

theorem keepsCards_other (hf : ∀ w, (f w).2.db.subscriptions = w.db.subscriptions) :
    KeepsCards (exec1 cfg l f) :=
  keepsCards_exec1 fun w => carded_of_eq (hf w)

variable (find : Db → Option α)

theorem firstOf_world : (firstOf find w).2 = w := by
  unfold firstOf
  split <;> rfl

theorem keepsCards_first : KeepsCards (exec1 cfg l (firstOf find)) :=
  keepsCards_other fun w => by rw [firstOf_world]

theorem keepsCards_read (read : Db → α) : KeepsCards (exec1 cfg l (readOf read)) :=
  keepsCards_other fun _ => rfl

theorem keepsCards_clock : KeepsCards (readClock l) := .atom fun _ h => h

theorem keepsCards_transaction {x : DbTx α} (hx : Preserves (fun w : World => Carded w.db) x) :
    KeepsCards (dbTransaction cfg l x) :=
  triple_transaction hx fun _ _ h _ => h

theorem preserves_stmt (hf : ∀ w, Carded w.db → Carded (f w).2.db) :
    Preserves (fun w : World => Carded w.db) (stmt cfg l f) := preserves_statement hf

theorem tryWriteOf_carded (hw : ∀ db db', write db = some db' → Carded db → Carded db')
    (w : World) (h : Carded w.db) : Carded (tryWriteOf write w).2.db := by
  unfold tryWriteOf
  split
  · next db' hdb => exact hw w.db db' hdb h
  · exact h

theorem granting_cards : Granting fun w => Carded w.db where
  frame _ := carded_of_eq
  create _ _ _ _ _ _ := carded_create (freshRow_carded _ _ _ _)
  update _ _ _ _ _ := carded_update fun s _ => activatedRow_carded _ _ _ s

theorem preserves_webhookConfirmation :
    Preserves (fun w : World => Carded w.db) (webhookConfirmation cfg yk obj details) := by
  refine (preserves_first _).bind fun payment => ?_
  split
  · exact preserves_promo granting_cards payment
  refine Preserves.bind (fun w h => h) fun now => ?_
  refine (preserves_stmt fun w h => h).ignoring.bind fun _ => ?_
  refine (preserves_first _).attempt.bind fun found => ?_
  have hgrant : ∀ p method, Preserves (fun w : World => Carded w.db) (do
      activateSubscriptionFromPayment cfg p method
      markPromoCodeUsed cfg p) := fun p method =>
    (preserves_activate granting_cards p method).bind fun _ => preserves_promo granting_cards p
  dsimp only
  split
  · exact hgrant _ _
  · exact Preserves.bind (fun w h => h) fun _ => hgrant _ _
  · exact hgrant _ _

theorem keepsCards_webhook (body : Option Json) : KeepsCards (webhook cfg body) := by
  have hfetch : ∀ yk, KeepsCards (fetchYooKassaPaymentDetails yk) := fun yk => .atom fun _ h => h
  unfold webhook
  split
  · exact .done _
  dsimp only
  split
  · refine (hfetch _).bind fun details => ?_
    split
    · exact .done _
    · split
      · exact .done _
      · refine (keepsCards_other fun _ => rfl).bind ?_
        rintro (_ | _) <;> exact .done _
  · split
    · exact .done _
    refine (hfetch _).bind fun details => ?_
    split
    · exact .done _
    · split
      · exact .done _
      · refine (keepsCards_transaction (preserves_webhookConfirmation)).bind ?_
        rintro (_ | _) <;> exact .done _

theorem keepsCards_reconcileEach (payments : List Payment) :
    KeepsCards (reconcileEach cfg payments) := by
  induction payments with
  | nil => exact .done _
  | cons p payments ih =>
    unfold reconcileEach
    split
    · exact ih
    refine KeepsCards.bind (.atom fun _ h => h) fun details => ?_
    split
    · exact ih
    split
    · refine (keepsCards_transaction (preserves_reconcileConfirmation granting_cards _ _)).bind ?_
      rintro (_ | _)
      · exact .done _
      · exact ih
    · split
      · refine (keepsCards_other fun _ => rfl).bind ?_
        rintro (_ | _)
        · exact .done _
        · exact ih
      · exact ih

theorem keepsCards_reconcile : KeepsCards (reconcilePendingUserPayments cfg userID) := by
  unfold reconcilePendingUserPayments
  split
  · exact .done _
  · refine (keepsCards_read _).bind ?_
    rintro (_ | payments)
    · exact .done _
    · exact keepsCards_reconcileEach payments

variable (id : ℕ)

theorem keepsCards_approve : KeepsCards (approvePayment cfg id) := by
  refine (keepsCards_first _).bind ?_
  rintro (_ | p)
  · exact .done _
  dsimp only
  split
  · exact .done _
  refine (keepsCards_clock).bind fun now => ?_
  refine (keepsCards_transaction ?_).bind ?_
  · refine Preserves.bind (preserves_stmt (tryWriteOf_carded ?_)) fun _ =>
      (preserves_activate granting_cards _ _).bind fun _ => preserves_promo granting_cards _
    intro db db' hs h
    obtain ⟨t, _, rfl⟩ := Option.map_eq_some_iff.mp hs
    exact h
  · rintro (_ | _) <;> exact .done _

theorem createPaymentOf_subscriptions (mk : ℕ → Payment) (w : World) :
    (createPaymentOf mk w).2.db.subscriptions = w.db.subscriptions := by
  unfold createPaymentOf
  split <;> rfl

variable (uuid : String)

theorem preserves_freeConfirmation (req : CreatePaymentRequest) (app : PromoApplication) (now : ℤ) :
    Preserves (fun w : World => Carded w.db) (freeConfirmation cfg userID uuid req app now) := by
  refine Preserves.bind (fun w h => h) fun w => ?_
  refine Preserves.bind (preserves_stmt fun w => ?_) fun payment => ?_
  · exact carded_of_eq (createPaymentOf_subscriptions _ w)
  · refine (preserves_activate granting_cards _ _).bind fun _ => ?_
    refine (preserves_promo granting_cards _).bind fun _ => ?_
    exact preserves_pure _

theorem keepsCards_upgrade (plan : String) : KeepsCards (upgradeUser cfg userID plan) := by
  refine (keepsCards_first _).bind ?_
  rintro (_ | user)
  · exact .done _
  dsimp only
  split
  · exact .done _
  -- the whole row is written back, so the row that was read matters
  refine Prog.Triple.bind (Q := fun found w => Carded w.db ∧
    ∀ sub, found = .ok sub → hasCardIfRenewing sub) ?_ fun found => ?_
  · refine triple_single (fun w h => ⟨h, nofun⟩) fun w h => ?_
    rw [firstOf_world]
    refine ⟨h, fun sub hsub => ?_⟩
    unfold firstOf at hsub
    split at hsub
    · next s hs =>
      cases hsub
      exact h _ (Db.subscriptionOf_some_iff.mp hs).1
    · cases hsub
  · refine .bind (Q := fun _ w => Carded w.db ∧
      ∀ sub, found = .ok sub → hasCardIfRenewing sub) (.atom fun _ h => h) fun now => ?_
    refine .bind ?_ fun _ => KeepsCards.done _
    refine triple_single (fun _ h => h.1) fun w h => ?_
    refine tryWriteOf_carded (fun db db' => carded_save fun n => ?_) w h.1
    cases found with
    | error e => exact card_of_not_renewing rfl
    | ok sub => exact h.2 sub rfl

theorem keepsCards_ensureDefault : KeepsCards (ensureDefaultSubscription cfg userID) := by
  refine (keepsCards_exec1 fun w h => ?_).bind ?_
  · change Carded (ensureSubscriptionSchema w).db
    unfold ensureSubscriptionSchema
    split
    · exact h
    · exact carded_update (fun s _ => card_of_not_renewing rfl) h
  · rintro (_ | _)
    · exact .done _
    refine (keepsCards_first _).bind fun found => ?_
    split
    · exact .done _
    · refine (keepsCards_clock).bind fun now => keepsCards_exec1 fun w h => ?_
      split
      · next db hdb => exact carded_create (fun n => card_of_not_renewing rfl) hdb h
      · exact h
    · exact .done _

theorem keepsCards_deleteCard : KeepsCards (deleteCard cfg userID) := by
  refine (keepsCards_first _).bind ?_
  rintro (_ | sub)
  · exact .done _
  · refine KeepsCards.bind (keepsCards_exec1 fun w => carded_update fun s _ => ?_) fun _ => .done _
    exact card_of_not_renewing rfl

def KeepsCard (_ : Stmt) (w w' : World) : Prop := Carded w.db → Carded w'.db

theorem KeepsCards.of_does (h : p.Does KeepsCard) : KeepsCards p :=
  h.triple fun _ _ _ hw => hw

theorem keepsCard_expires : Expires KeepsCard where
  remote _ _ h := h
  access _ _ _ _ h := h
  expire _ _ := carded_update fun _ h => h
  failed _ h := h

theorem keepsCard_charges : Charges KeepsCard where
  idle _ _ h := h
  charge _ := Prog.does_atom fun w h => by split <;> exact h
  extend _ _ _ _ := carded_update fun _ h => h
  store _ _ _ _ _ _ w := carded_of_eq (createPaymentOf_subscriptions _ w)

theorem keepsCard_orders : Orders cfg userID KeepsCard where
  idle _ _ _ _ h := h
  post _ _ _ _ h := h
  store _ _ _ w := carded_of_eq (createPaymentOf_subscriptions _ w)
  free _ _ _ _ := Prog.does_atom (keepsCards_transaction (preserves_freeConfirmation _ _ _ _ _))

theorem keepsCards_revokeTokens : KeepsCards (revokeHappTokens cfg userID now) :=
  .of_does (does_revokeHappTokens keepsCard_expires _ _)

theorem keepsCards_revokeByID : KeepsCards (revokeUserKeysByID cfg userID) := by
  refine (keepsCards_clock).bind fun now => ?_
  refine KeepsCards.bind (.of_does (does_revokeKeys keepsCard_expires _ _)) fun _ => ?_
  refine KeepsCards.bind (.of_does (does_revokeCredentials keepsCard_expires _ _)) fun _ => ?_
  exact (keepsCards_revokeTokens userID now).bind fun _ => .done _

theorem preserves_subscriptionRevocation :
    Preserves (fun w : World => Carded w.db) (subscriptionRevocation cfg userID now) := by
  have hprofiles : ∀ (q : RoutingProfile → Bool) (f : World → Table.Write RoutingProfile),
      Preserves (fun w : World => Carded w.db)
      (stmt cfg (.admin userID .disableProfiles) fun w => (.ok (), { w with db := { w.db with
        routingProfiles := w.db.routingProfiles.update q (f w) } })) :=
    fun q f => preserves_stmt fun w h => h
  refine (preserves_first _).attempt.bind fun found => ?_
  split
  · refine Preserves.bind (preserves_stmt (tryWriteOf_carded fun _ _ => ?_)) fun _ => hprofiles _ _
    exact carded_create fun n => card_of_not_renewing rfl
  · exact Preserves.bind (fun w h => h) fun _ => hprofiles _ _
  · refine Preserves.bind (preserves_stmt fun w => carded_update fun s _ => ?_)
      fun _ => hprofiles _ _
    exact card_of_not_renewing rfl

theorem keepsCards_revokeSubscription (req : Except Unit (Option Bool)) :
    KeepsCards (revokeUserSubscription cfg id req) := by
  refine (keepsCards_first _).bind ?_
  rintro (_ | user)
  · exact .done _
  dsimp only
  split
  · exact .done _
  refine (keepsCards_clock).bind fun now => ?_
  refine (keepsCards_transaction (preserves_subscriptionRevocation _ _)).bind ?_
  rintro (_ | _)
  · exact .done _
  · dsimp only
    split
    · exact (keepsCards_revokeByID _).bind fun _ => .done _
    · exact (keepsCards_revokeTokens _ _).bind fun _ => .done _

theorem keepsCards_revokeUserKeys : KeepsCards (revokeUserKeys cfg id) := by
  refine (keepsCards_first _).bind ?_
  rintro (_ | user)
  · exact .done _
  · exact (keepsCards_revokeByID _).bind fun _ => .done _

/-- The request switches the renewal on for a stored subscription without a card. -/
def EnablesUnbacked (cfg : Setup) (userID : ℕ) (req : Except String Bool) (w : World) : Prop :=
  req = .ok true ∧ cfg.recurringPaymentsEnabled = true ∧
    cfg.faults (.account userID .findRenewal) = false ∧
    cfg.faults (.account userID .setAutoRenew) = false ∧
    (w.db.subscriptionOf userID).map (·.paymentMethodID) = some ""

instance (cfg : Setup) (userID : ℕ) (req : Except String Bool) (w : World) :
    Decidable (EnablesUnbacked cfg userID req w) := inferInstanceAs (Decidable (_ ∧ _))

theorem carded_autoRenewAs_iff (h : Carded db) {sub} (hs : sub ∈ db.subscriptions.rows) :
    Carded (updateSubscription sub.id (autoRenewAs enabled) db) ↔
      (enabled → sub.paymentMethodID ≠ "") := by
  constructor
  · intro hc
    exact hc ((autoRenewAs enabled).apply sub) ((Table.mem_update _).mpr ⟨sub, hs, by simp⟩)
  · intro hcard s hmem
    obtain ⟨r, hr, rfl⟩ := (Table.mem_update _).mp hmem
    split
    · next hid =>
      rw [db.subscriptions.id_injective hr hs (of_decide_eq_true hid)]
      exact hcard
    · exact h r hr

variable {w : World}

theorem setAutoRenew_keeps_iff (req : Except String Bool) (h : Carded w.db) :
    Carded ((setAutoRenew cfg userID req).run w).2.db ↔ ¬ EnablesUnbacked cfg userID req w := by
  cases req with
  | error message => exact iff_of_true h fun hu => by cases hu.1
  | ok enabled =>
    simp only [setAutoRenew, bind_eq, run_bind, exec1, single_run]
    by_cases hfind : cfg.faults (.account userID .findRenewal)
    · simpa [hfind, EnablesUnbacked] using h
    · cases hsub : w.db.subscriptionOf userID with
      | none => simpa [hfind, firstOf, hsub, EnablesUnbacked] using h
      | some sub =>
        have hrow := (Db.subscriptionOf_some_iff.mp hsub).1
        simp only [hfind, firstOf, hsub, Bool.false_eq_true, if_false]
        by_cases hrec : (enabled && !cfg.recurringPaymentsEnabled)
        · have hparts := Bool.and_eq_true_iff.mp hrec
          have hno : cfg.recurringPaymentsEnabled = false := by simpa using hparts.2
          simpa [hparts.1, EnablesUnbacked, hno] using h
        · simp only [hrec, Bool.false_eq_true, if_false, run_bind, single_run]
          by_cases hset : cfg.faults (.account userID .setAutoRenew)
          · simpa [hset, EnablesUnbacked] using h
          simp only [hset, Bool.false_eq_true, if_false, writeOf, pure_eq, Prog.run_done]
          rw [carded_autoRenewAs_iff h hrow]
          cases enabled with
          | false => simp [EnablesUnbacked]
          | true =>
            have hrecurring : cfg.recurringPaymentsEnabled := by simpa using hrec
            simp [EnablesUnbacked, hrecurring, hfind, hset, hsub]

inductive Operation where
  | ensureDefault (userID : ℕ)
  | webhook (body : Option Json)
  | reconcile (userID : ℕ)
  | createPayment (userID : ℕ) (uuid : String) (req : Option CreatePaymentRequest)
  | approvePayment (paymentID : ℕ)
  | upgradeUser (userID : ℕ) (plan : String)
  | revokeUserSubscription (userID : ℕ) (req : Except Unit (Option Bool))
  | revokeUserKeys (userID : ℕ)
  | setAutoRenew (userID : ℕ) (req : Except String Bool)
  | deleteCard (userID : ℕ)
  | processAutoRenewals

def Operation.program (cfg : Setup) : Operation → Handler Unit
  | .ensureDefault userID => (ensureDefaultSubscription cfg userID).forget
  | .webhook body => (PaymentHandlers.webhook cfg body).forget
  | .reconcile userID => (reconcilePendingUserPayments cfg userID).forget
  | .createPayment userID uuid req => (PaymentCreation.createPayment cfg userID uuid req).forget
  | .approvePayment paymentID => (PaymentHandlers.approvePayment cfg paymentID).forget
  | .upgradeUser userID plan => (PaymentHandlers.upgradeUser cfg userID plan).forget
  | .revokeUserSubscription userID req =>
    (AccountHandlers.revokeUserSubscription cfg userID req).forget
  | .revokeUserKeys userID => (AccountHandlers.revokeUserKeys cfg userID).forget
  | .setAutoRenew userID req => (AccountHandlers.setAutoRenew cfg userID req).forget
  | .deleteCard userID => (AccountHandlers.deleteCard cfg userID).forget
  | .processAutoRenewals => RenewalScheduler.processAutoRenewals cfg

/-- An operation with the settings and failures it meets, or time and the provider moving
on. -/
inductive Turn where
  | act (cfg : Setup) (op : Operation)
  | pass (w' : World)

def Turn.next (w : World) : Turn → World
  | .act cfg op => ((op.program cfg).run w).2
  | .pass w' => w'

def worldAfter (w : World) (turns : List Turn) : World := turns.foldl Turn.next w

def Lawful : World → List Turn → Prop
  | _, [] => True
  | w, turn :: turns => (∀ w', turn = .pass w' → Passes w w') ∧ Lawful (turn.next w) turns

def Unbacked (w : World) : Turn → Prop
  | .act cfg (.setAutoRenew userID req) => EnablesUnbacked cfg userID req w
  | _ => False

/-- No request switches the renewal on for a subscription that has no card then. -/
def NoneUnbacked : World → List Turn → Prop
  | _, [] => True
  | w, turn :: turns => ¬ Unbacked w turn ∧ NoneUnbacked (turn.next w) turns

theorem operation_keeps_cards (cfg : Setup) {op : Operation}
    (hop : ∀ userID req, op ≠ .setAutoRenew userID req) : KeepsCards (op.program cfg) := by
  cases op with
  | setAutoRenew userID req => exact absurd rfl (hop userID req)
  | ensureDefault userID => exact (keepsCards_ensureDefault userID).forget
  | webhook body => exact (keepsCards_webhook body).forget
  | reconcile userID => exact (keepsCards_reconcile userID).forget
  | createPayment userID uuid req =>
    exact .of_does (does_createPayment (keepsCard_orders userID) uuid req).forget
  | approvePayment id => exact (keepsCards_approve id).forget
  | upgradeUser userID plan => exact (keepsCards_upgrade userID plan).forget
  | revokeUserSubscription userID req => exact (keepsCards_revokeSubscription userID req).forget
  | revokeUserKeys userID => exact (keepsCards_revokeUserKeys userID).forget
  | deleteCard userID => exact (keepsCards_deleteCard userID).forget
  | processAutoRenewals =>
    exact .of_does (does_processAutoRenewals keepsCard_charges keepsCard_expires)

theorem unbacked_iff : Unbacked w turn ↔ ∃ cfg userID req,
    turn = .act cfg (.setAutoRenew userID req) ∧ EnablesUnbacked cfg userID req w := by
  constructor
  · intro h
    unfold Unbacked at h
    split at h
    · exact ⟨_, _, _, rfl, h⟩
    · exact h.elim
  · rintro ⟨cfg, userID, req, rfl, h⟩
    exact h

theorem turn_keeps_cards_iff (hlaw : ∀ w', turn = .pass w' → Passes w w') (h : Carded w.db) :
    Carded (turn.next w).db ↔ ¬ Unbacked w turn := by
  by_cases hset : ∃ cfg userID req, turn = .act cfg (.setAutoRenew userID req)
  · obtain ⟨cfg, userID, req, rfl⟩ := hset
    rw [Turn.next, Operation.program, Prog.run_forget]
    exact setAutoRenew_keeps_iff userID req h
  · have hbacked : ¬ Unbacked w turn := by
      intro hu
      obtain ⟨cfg, userID, req, ht, _⟩ := unbacked_iff.mp hu
      exact hset ⟨cfg, userID, req, ht⟩
    refine iff_of_true ?_ hbacked
    cases turn with
    | pass w' =>
      rw [Turn.next, (hlaw w' rfl).db]
      exact h
    | act cfg op =>
      refine operation_keeps_cards cfg (fun userID req hop => hset ⟨cfg, userID, req, ?_⟩) w h
      rw [hop]

/-- Over every sequence of operations, automatic renewal implies a card in every state
reached exactly if no request switches it on without one. -/
theorem renewal_has_card_iff (turns : List Turn) {w : World} (hlaw : Lawful w turns)
    (h : Carded w.db) :
    (∀ done rest, turns = done ++ rest → Carded (worldAfter w done).db) ↔ NoneUnbacked w turns := by
  induction turns generalizing w with
  | nil =>
    refine iff_of_true (fun done rest he => ?_) trivial
    rw [(List.append_eq_nil_iff.mp he.symm).1]
    exact h
  | cons turn turns ih =>
    have hstep := turn_keeps_cards_iff hlaw.1 h
    constructor
    · intro hall
      have hnext : Carded (turn.next w).db := hall [turn] turns rfl
      refine ⟨hstep.mp hnext, (ih hlaw.2 hnext).mp fun done rest he => ?_⟩
      exact hall (turn :: done) rest (by rw [he]; rfl)
    · rintro ⟨hbacked, hrest⟩ done rest he
      cases done with
      | nil => exact h
      | cons turn' done =>
        cases he
        exact (ih hlaw.2 (hstep.mpr hbacked)).mpr hrest done rest rfl

def newUserWorld : World :=
  .start { Db.empty with users := ⟨[⟨7, "a@example.org"⟩], 8, User.valid_one _⟩ } 0
    (.answering (fun _ => none) [])

def enablingTurns : List Turn :=
  [.act (.standard "1") (.ensureDefault 7), .act (.standard "1") (.setAutoRenew 7 (.ok true))]

theorem default_subscription_renews_without_card :
    Lawful newUserWorld enablingTurns ∧ Carded newUserWorld.db ∧
      ¬ Carded (worldAfter newUserWorld enablingTurns).db :=
  ⟨⟨nofun, nofun, trivial⟩, by decide, by decide +kernel⟩

def cardWorld : World :=
  .start { Db.empty with
    users := ⟨[⟨7, "a@example.org"⟩], 8, User.valid_one _⟩
    subscriptions := ⟨[⟨1, 7, .basic, .active, 100, true, "card"⟩], 2, by decide⟩ } 0
    (.answering (fun _ => none) [])

def cardTurns : List Turn :=
  [.act (.standard "1") (.setAutoRenew 7 (.ok false)),
    .act (.standard "1") (.setAutoRenew 7 (.ok true)), .act (.standard "1") (.deleteCard 7)]

theorem card_holder_keeps_card_while_renewing :
    NoneUnbacked cardWorld cardTurns ∧
      (worldAfter cardWorld (cardTurns.take 2)).db.subscriptions.rows.map (·.autoRenew) = [true] ∧
      ∀ done rest, cardTurns = done ++ rest → Carded (worldAfter cardWorld done).db := by
  have hnone : NoneUnbacked cardWorld cardTurns :=
    ⟨fun h : EnablesUnbacked _ _ _ _ => absurd h (by decide +kernel),
      fun h : EnablesUnbacked _ _ _ _ => absurd h (by decide +kernel), fun h => h, trivial⟩
  refine ⟨hnone, by decide +kernel, ?_⟩
  exact (renewal_has_card_iff cardTurns ⟨nofun, nofun, nofun, trivial⟩ (by decide)).mpr hnone

end SavedCards
