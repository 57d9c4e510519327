import DrFrakeVpn.ClientEffects

/-! # Trials over every interleaving

The invariant counts the trials of the user that may still be activated, and asks that nothing
else of the user can be confirmed while there is one. -/
namespace TrialEligibility

open SharedPrograms RecordTables List
open BackendModels BackendWorld PaymentHandlers PaymentCreation
open HandlerEffects RequestEffects ClientEffects

variable {cfg : Setup}

/-- No activation of the user comes before that of a trial: neither a second trial nor a trial
after a paid plan. -/
def TrialFirst (u : ℕ) (w : World) : Prop :=
  w.activations.Pairwise fun before a => a.userID = u → a.plan = .trial → before.userID ≠ u

instance (u : ℕ) (w : World) : Decidable (TrialFirst u w) :=
  inferInstanceAs (Decidable (List.Pairwise _ _))

def Unactivated (u : ℕ) (w : World) : Prop := ∀ a ∈ w.activations, a.userID ≠ u

instance (u : ℕ) (w : World) : Decidable (Unactivated u w) :=
  inferInstanceAs (Decidable (∀ a ∈ w.activations, a.userID ≠ u))

def isTrial (plan : PlanType) : Bool := plan = .trial

def isPaid (plan : PlanType) : Bool := plan ≠ .trial

/-- An open payment of the user for one of the plans. -/
def awaiting (u : ℕ) (sel : PlanType → Bool) (p : Payment) : Bool :=
  p.userID = u && sel p.plan && p.status = .pending

def trialUnderway (u : ℕ) : Option Stmt → Bool
  | some (.createPayment v plan _ site) => v = u && isTrial plan && 0 < rank site
  | _ => false

def openTrials (u : ℕ) (ls : List (Option Stmt)) (w : World) : ℕ :=
  w.db.payments.count (awaiting u isTrial) + ls.countP (trialUnderway u)

def openPaid (u : ℕ) (w : World) : ℕ := w.db.payments.count (awaiting u isPaid)

structure TrialsBooked (u : ℕ) (ls : List (Option Stmt)) (w : World) : Prop where
  first : TrialFirst u w
  cancelled : CancelledByProvider (fun p => p.userID = u) w
  one : openTrials u ls w ≤ 1
  alone : 0 < openTrials u ls w → Unactivated u w ∧ openPaid u w = 0

/-- When the check for a trial passes, the user has nothing open and nothing activated; when
an order for a paid plan is stored or confirmed free of charge, the user has no open trial. -/
def TrialsApart (u : ℕ) : Guard World Stmt := fun l ls w =>
  (∀ promo, l = .createPayment u .trial promo .trialCount →
    w.db.payments.count (isPurchase u) = 0 →
    openTrials u ls w = 0 ∧ openPaid u w = 0 ∧ Unactivated u w) ∧
  ∀ plan promo site, l = .createPayment u plan promo site → site = .store ∨ site = .freeConfirm →
    plan ≠ .trial → openTrials u ls w = 0

instance (u : ℕ) (l : Stmt) (ls : List (Option Stmt)) (w : World) :
    Decidable (TrialsApart u l ls w) :=
  match h : order? l with
  | none => isTrue (by
      constructor
      · rintro promo rfl
        cases h
      · rintro plan promo site rfl
        cases h)
  | some (v, plan, promo, site) =>
    decidable_of_iff
      (v = u → (plan = .trial ∧ site = .trialCount → w.db.payments.count (isPurchase u) = 0 →
        openTrials u ls w = 0 ∧ openPaid u w = 0 ∧ Unactivated u w) ∧
      (site = .store ∨ site = .freeConfirm → plan ≠ .trial → openTrials u ls w = 0)) (by
      obtain rfl := order_some h
      constructor
      · intro hc
        constructor
        · rintro promo' ⟨⟩
          exact (hc rfl).1 ⟨rfl, rfl⟩
        · rintro plan' promo' site' ⟨⟩
          exact (hc rfl).2
      · rintro hr rfl
        constructor
        · rintro ⟨rfl, rfl⟩
          exact hr.1 promo rfl
        · exact hr.2 plan promo site rfl)

section Activations

variable {u : ℕ} {w w' : World} {a : Activation}

theorem trialFirst_append (h : TrialFirst u w) (ha : w'.activations = w.activations ++ [a])
    (hnew : a.userID = u → a.plan = .trial → Unactivated u w) : TrialFirst u w' := by
  rw [TrialFirst, ha, pairwise_append]
  refine ⟨h, pairwise_singleton _ a, ?_⟩
  intro before hb b hmem hu hplan
  rw [mem_singleton.mp hmem] at hu hplan
  exact hnew hu hplan before hb

theorem trialFirst_same (h : TrialFirst u w) (ha : w'.activations = w.activations) :
    TrialFirst u w' := by
  rw [TrialFirst, ha]
  exact h

theorem unactivated_same (h : Unactivated u w) (ha : w'.activations = w.activations) :
    Unactivated u w' := by
  rw [Unactivated, ha]
  exact h

theorem unactivated_append (h : Unactivated u w) (ha : w'.activations = w.activations ++ [a])
    (hu : a.userID ≠ u) : Unactivated u w' := by
  intro b hb
  rw [ha] at hb
  rcases mem_append.mp hb with hb | hb
  · exact h b hb
  · rw [mem_singleton.mp hb]
    exact hu

end Activations

variable {promo : Option ℕ} {plan : PlanType} {v : ℕ} {site : CreateSite}

section Labels

variable {u : ℕ} {n : Option Stmt}

theorem trialUnderway_outside (hn : OutsideOrders n) : trialUnderway u n = false := by
  cases n with
  | none => rfl
  | some l =>
    have hl := hn l rfl
    cases l with
    | createPayment => cases hl
    | _ => rfl

theorem trialUnderway_order :
    trialUnderway u (some (.createPayment v plan promo site)) ↔
      v = u ∧ plan = .trial ∧ 0 < rank site := by
  simp [trialUnderway, isTrial, and_assoc]

theorem trialUnderway_check (hf : Follows v plan promo site n) (hn : trialUnderway u n) :
    trialUnderway u (some (.createPayment v plan promo site)) ∨
      v = u ∧ plan = .trial ∧ site = .trialCount := by
  rcases hf with rfl | ⟨promo', site', rfl, _⟩
  · cases hn
  obtain ⟨hv, hplan, _⟩ := trialUnderway_order.mp hn
  by_cases hsite : 0 < rank site
  · exact .inl (trialUnderway_order.mpr ⟨hv, hplan, hsite⟩)
  · refine .inr ⟨hv, hplan, ?_⟩
    cases site with
    | trialCount => rfl
    | _ => exact absurd hsite (by decide)

end Labels

section OneAction

variable {u : ℕ} {ls : List (Option Stmt)} {i : ℕ} {w w' : World} {l : Stmt} {n : Option Stmt}
  {ls' : List (Option Stmt)}

theorem labels_done (hi : ls[i]? = some (some (.createPayment v plan promo site)))
    (hsite : 0 < rank site) :
    (ls.set i none).countP (trialUnderway u) + (if v = u ∧ plan = .trial then 1 else 0) =
      ls.countP (trialUnderway u) := by
  have hlabels := countP_set_add (trialUnderway u) hi none
  have hnone : trialUnderway u none = false := rfl
  simp only [hnone, Bool.false_eq_true, if_false, trialUnderway_order, hsite, and_true,
    Nat.add_zero] at hlabels
  exact hlabels

theorem labels_outside (hi : ls[i]? = some (some l)) (hl : order? l = none) (hn : OutsideOrders n) :
    (ls.set i n).countP (trialUnderway u) = ls.countP (trialUnderway u) := by
  have hlabels := countP_set_add (trialUnderway u) hi n
  rw [trialUnderway_outside (outsideOrders_some hl), trialUnderway_outside hn] at hlabels
  exact hlabels

variable {mk : ℕ → Payment}

theorem awaiting_new (hrow : NewRow v plan promo status mk) :
    awaiting u sel (mk k) = (decide (v = u) && sel plan && decide (status = .pending)) := by
  simp [awaiting, hrow.userID, hrow.plan, hrow.status]

variable (h : TrialsBooked u ls w) (hcancel : CancelledByProvider (fun p => p.userID = u) w')
include hcancel

theorem booked_of_none (hfirst : TrialFirst u w') (htrials : openTrials u ls' w' = 0) :
    TrialsBooked u ls' w' := by
  refine ⟨hfirst, hcancel, by omega, ?_⟩
  intro hpos
  omega

include h

theorem booked_of_le (hfirst : TrialFirst u w')
    (hact : Unactivated u w → Unactivated u w') (htrials : openTrials u ls' w' ≤ openTrials u ls w)
    (hpaid : openPaid u w' ≤ openPaid u w) : TrialsBooked u ls' w' := by
  have hone := h.one
  refine ⟨hfirst, hcancel, by omega, ?_⟩
  intro hpos
  obtain ⟨hun, hzero⟩ := h.alone (by omega)
  exact ⟨hact hun, by omega⟩

theorem step_check (hi : ls[i]? = some (some l)) (ha : TrialsApart u l ls w)
    (hl : l = .createPayment v plan promo site)
    (hf : Follows v plan promo site n) (hc : Checked w v plan promo n site)
    (hp : w'.db.payments = w.db.payments) (hact : w'.activations = w.activations) :
    TrialsBooked u (ls.set i n) w' := by
  have hlabels := countP_set_add (trialUnderway u) hi n
  subst hl
  by_cases henter : trialUnderway u n ∧
      trialUnderway u (some (.createPayment v plan promo site)) = false
  · obtain ⟨hn, hbefore⟩ := henter
    rcases trialUnderway_check hf hn with hnot | ⟨rfl, rfl, rfl⟩
    · rw [hbefore] at hnot
      cases hnot
    · have hne : n ≠ none := by
        rintro rfl
        cases hn
      obtain ⟨hzero, hpaid, hun⟩ := ha.1 promo rfl (hc hne)
      simp only [hn, hbefore, if_true, Bool.false_eq_true, if_false] at hlabels
      refine ⟨trialFirst_same h.first hact, hcancel, ?_, ?_⟩
      · simp only [openTrials, hp] at hzero ⊢
        omega
      · intro _
        refine ⟨unactivated_same hun hact, ?_⟩
        rw [openPaid, hp]
        exact hpaid
  · refine booked_of_le h hcancel (trialFirst_same h.first hact)
      (fun hun => unactivated_same hun hact) ?_ (by rw [openPaid, openPaid, hp])
    simp only [openTrials, hp]
    by_cases hn : trialUnderway u n
    · have hbefore : trialUnderway u (some (.createPayment v plan promo site)) := by
        by_contra hnot
        exact henter ⟨hn, by simpa using hnot⟩
      simp only [hn, hbefore, if_true] at hlabels
      omega
    · simp only [hn, Bool.false_eq_true, if_false] at hlabels
      omega

theorem step_order (hi : ls[i]? = some (some l)) (ha : TrialsApart u l ls w)
    (hl : l = .createPayment v plan promo .store) (hn : n = none)
    (hrow : NewRow v plan promo .pending mk) (hp : w.db.payments.insert mk = some w'.db.payments)
    (hact : w'.activations = w.activations) : TrialsBooked u (ls.set i n) w' := by
  have hfirst := trialFirst_same h.first hact
  subst hl hn
  have hlabels := labels_done (u := u) hi (by decide)
  have htrial := w.db.payments.count_insert hp (awaiting u isTrial)
  have hpaid := w.db.payments.count_insert hp (awaiting u isPaid)
  rw [awaiting_new hrow] at htrial hpaid
  by_cases hv : v = u
  · by_cases hplan : plan = .trial
    · simp only [hv, hplan, isTrial, isPaid, ne_eq, not_true_eq_false, decide_true, decide_false,
        Bool.and_self, Bool.and_false, Bool.false_and, Bool.false_eq_true, if_true, if_false,
        and_self] at hlabels htrial hpaid
      refine booked_of_le h hcancel hfirst (fun hun => unactivated_same hun hact) ?_ ?_
      · unfold openTrials
        omega
      · unfold openPaid
        omega
    · have hzero := ha.2 plan promo .store (hv ▸ rfl) (.inl rfl) hplan
      simp only [hplan, isTrial, decide_false, Bool.and_false, Bool.false_and, Bool.false_eq_true,
        if_false, and_false] at hlabels htrial
      refine booked_of_none hcancel hfirst ?_
      unfold openTrials at hzero ⊢
      omega
  · simp only [hv, decide_false, Bool.false_and, Bool.false_eq_true, if_false, false_and]
      at hlabels htrial hpaid
    refine booked_of_le h hcancel hfirst (fun hun => unactivated_same hun hact) ?_ ?_
    · unfold openTrials
      omega
    · unfold openPaid
      omega

theorem step_free (hi : ls[i]? = some (some l)) (ha : TrialsApart u l ls w)
    (hl : l = .createPayment v plan promo .freeConfirm) (hn : n = none)
    (hrow : NewRow v plan promo .succeeded mk) (hp : w.db.payments.insert mk = some w'.db.payments)
    (hact : w'.activations = w.activations ++ [⟨w.db.payments.seq, v, plan⟩]) :
    TrialsBooked u (ls.set i n) w' := by
  have hone := h.one
  subst hl hn
  have hlabels := labels_done (u := u) hi (by decide)
  have hnew : ∀ sel, w'.db.payments.count (awaiting u sel) =
      w.db.payments.count (awaiting u sel) := by
    intro sel
    have hcount := w.db.payments.count_insert hp (awaiting u sel)
    rw [awaiting_new hrow] at hcount
    simpa using hcount
  by_cases hv : v = u
  · by_cases hplan : plan = .trial
    · simp only [hv, hplan, and_self, if_true] at hlabels
      have hopen : 0 < openTrials u ls w := by
        unfold openTrials
        omega
      refine booked_of_none hcancel
        (trialFirst_append h.first hact fun _ _ => (h.alone hopen).1) ?_
      unfold openTrials at hone ⊢
      rw [hnew]
      omega
    · have hzero := ha.2 plan promo .freeConfirm (hv ▸ rfl) (.inr rfl) hplan
      refine booked_of_none hcancel
        (trialFirst_append h.first hact fun _ ht => absurd ht hplan) ?_
      unfold openTrials at hzero ⊢
      rw [hnew]
      omega
  · simp only [hv, false_and, if_false] at hlabels
    refine booked_of_le h hcancel (trialFirst_append h.first hact fun hu => absurd hu hv)
      (fun hun => unactivated_append hun hact hv) ?_ ?_
    · unfold openTrials
      rw [hnew]
      omega
    · rw [openPaid, openPaid, hnew]

theorem step_settle (hi : ls[i]? = some (some l)) (p : Payment) (hl : order? l = none)
    (hn : OutsideOrders n)
    (hm : p ∈ w.db.payments.rows) (hs : p.status ≠ .succeeded)
    (hpaid : w.provider.status p.yooKassaID = some "succeeded")
    (hp : w'.db.payments = w.db.payments.updateId p.id (succeededAt w.now))
    (hact : w'.activations = w.activations ++ [⟨p.id, p.userID, p.plan⟩]) :
    TrialsBooked u (ls.set i n) w' := by
  have hone := h.one
  have hlabels := labels_outside (u := u) hi hl hn
  have hbyId : w.db.payments.byId p.id = some p := w.db.payments.byId_some_iff.mpr ⟨hm, rfl⟩
  have hcount : ∀ sel, w'.db.payments.count (awaiting u sel) +
      (if awaiting u sel p then 1 else 0) = w.db.payments.count (awaiting u sel) := by
    intro sel
    have hupd := w.db.payments.count_updateId hbyId (succeededAt w.now) (awaiting u sel)
    rw [← hp] at hupd
    simpa [awaiting, succeededAt] using hupd
  have htrial := hcount isTrial
  have hpaidRows := hcount isPaid
  by_cases hu : p.userID = u
  · have hpending := pending_of_settle h.cancelled hm hu hs hpaid
    by_cases hplan : p.plan = .trial
    · simp only [awaiting, hu, hplan, hpending, isTrial, decide_true, Bool.and_self, if_true]
        at htrial
      have hopen : 0 < openTrials u ls w := by
        unfold openTrials
        omega
      refine booked_of_none hcancel
        (trialFirst_append h.first hact fun _ _ => (h.alone hopen).1) ?_
      unfold openTrials at hone ⊢
      omega
    · -- an open payment for a paid plan: no trial is open
      simp only [awaiting, hu, hplan, hpending, isPaid, ne_eq, not_false_eq_true, decide_true,
        Bool.and_self, if_true] at hpaidRows
      have hzero : openTrials u ls w = 0 := by
        by_contra hne
        have := (h.alone (Nat.pos_of_ne_zero hne)).2
        unfold openPaid at this
        omega
      refine booked_of_none hcancel
        (trialFirst_append h.first hact fun _ ht => absurd ht hplan) ?_
      unfold openTrials at hzero ⊢
      omega
  · refine booked_of_le h hcancel (trialFirst_append h.first hact fun he => absurd he hu)
      (fun hun => unactivated_append hun hact hu) ?_ ?_
    · unfold openTrials
      omega
    · unfold openPaid
      omega

omit h hcancel

theorem booked_step (h : TrialsBooked u ls w) (hk : Keeps w w') (hi : ls[i]? = some (some l))
    (ha : TrialsApart u l ls w) (hb : Booking w l w' n) : TrialsBooked u (ls.set i n) w' := by
  have hcancel := cancelledByProvider_step h.cancelled hk hb
  cases hb with
  | other hl hn hp hact =>
    have hlabels := labels_outside (u := u) hi hl hn
    refine booked_of_le h hcancel (trialFirst_same h.first hact)
      (fun hun => unactivated_same hun hact) ?_ (by rw [openPaid, openPaid, hp])
    simp only [openTrials, hp]
    omega
  | check hl hf hc hp hact => exact step_check h hcancel hi ha hl hf hc hp hact
  | order hl hn hrow hp hact => exact step_order h hcancel hi ha hl hn hrow hp hact
  | free hl hn hrow _ hp hact => exact step_free h hcancel hi ha hl hn hrow hp hact
  | settle p hl hn hm hs hpaid hp hact =>
    exact step_settle h hcancel hi p hl hn hm hs hpaid hp hact
  | cancel c hl hn hc hp hact =>
    have hlabels := labels_outside (u := u) hi hl hn
    have hle : ∀ sel, w'.db.payments.count (awaiting u sel) ≤
        w.db.payments.count (awaiting u sel) := by
      intro sel
      rw [hp]
      exact w.db.payments.count_update_le (by simp [awaiting, setPaymentStatus])
    have htrial := hle isTrial
    refine booked_of_le h hcancel (trialFirst_same h.first hact)
      (fun hun => unactivated_same hun hact) ?_ (hle isPaid)
    unfold openTrials
    omega

end OneAction

theorem booked_passes (h : TrialsBooked u ls w) (hp : Passes w w') :
    TrialsBooked u ls w' := by
  refine booked_of_le h (cancelledByProvider_passes h.cancelled hp)
    (trialFirst_same h.first hp.activations) (fun hun => unactivated_same hun hp.activations) ?_ ?_
  · rw [openTrials, openTrials, hp.db]
  · rw [openPaid, openPaid, hp.db]

theorem openTrials_start (hclient : ∀ r ∈ requests, isClient r) :
    openTrials u (pool cfg requests w).labels w = openTrials u [] w := by
  rw [openTrials, countP_start hclient (fun _ hn => trialUnderway_outside hn), openTrials,
    countP_nil]
  intro v plan site htrial hunder
  obtain ⟨_, hplan, hsite⟩ := trialUnderway_order.mp hunder
  rw [htrial hplan] at hsite
  exact absurd hsite (by decide)

/-- Over every interleaving of orders, webhooks and reconciliations in which trials stay apart
from other open payments of the user, a trial is the first thing the user gets. -/
theorem trial_is_first (h : cfg.Reliable) {requests : List Request}
    (hclient : ∀ r ∈ requests, isClient r = true) {u : ℕ} {w : World}
    (hstart : TrialsBooked u [] w) {c : Config World Stmt}
    (he : Execution Passes (TrialsApart u) (pool cfg requests w) c) : TrialFirst u c.shared := by
  have hbooked : TrialsBooked u c.labels c.shared := by
    refine pool_invariant h
      (fun r hr l hl => clientLabel_of_owns (hclient r hr) hl) ?_ ?_ ?_ he
    · intro ls i w l w' n hl hJ hi ha heff
      exact booked_step hJ heff.keeps hi ha (client_booking hl heff)
    · intro ls w w' hJ hp
      exact booked_passes hJ hp
    · refine booked_of_le hstart hstart.cancelled hstart.first (fun hun => hun) ?_ le_rfl
      rw [openTrials_start hclient]
  exact hbooked.first

def newcomerWorld : World :=
  .start { Db.empty with users := ⟨[⟨7, "a@example.org"⟩], 8, User.valid_one _⟩ } 0 acceptingTwo

def trialAndBasic : List Request :=
  [.create 7 "a" (some ⟨.trial, "", by decide⟩),
    .create 7 "b" (some ⟨.basic, "", PlanType.basic_ne_free⟩),
    succeededEvent "pay-2", succeededEvent "pay-1"]

def afterOrders : Config World Stmt :=
  (pool (.standard "") trialAndBasic newcomerWorld).runSchedule [0, 0, 0, 0, 1, 1, 1]

theorem afterOrders_pays :
    Passes afterOrders.shared { afterOrders.shared with provider := paidTwo } := by
  refine passes_of_acceptedTwo ?_
  with_unfolding_all rfl

theorem newcomerWorld_booked : TrialsBooked 7 [] newcomerWorld := by
  refine ⟨by decide, ?_, by decide, fun h => absurd h (by decide)⟩
  intro p hp
  exact absurd hp (by simp [newcomerWorld, World.start, Db.empty, Table.empty])

theorem trial_follows_basic :
    (Setup.standard "").Reliable ∧ (∀ r ∈ trialAndBasic, isClient r = true) ∧
      TrialsBooked 7 [] newcomerWorld ∧
      ∃ c, Execution Passes Unguarded (pool (.standard "") trialAndBasic newcomerWorld) c ∧
        ¬ TrialFirst 7 c.shared := by
  refine ⟨Setup.standard_reliable "", by decide, newcomerWorld_booked,
    Config.runSchedule ⟨afterOrders.threads, { afterOrders.shared with provider := paidTwo }⟩
      [2, 2, 3, 3], ?_, by decide +kernel⟩
  exact ((runSchedule_execution _ _ (schedule_unguarded _ _)).trans
    (environment_execution afterOrders afterOrders_pays)).trans
    (runSchedule_execution _ _ (schedule_unguarded _ _))

def afterTrial : Config World Stmt :=
  (pool (.standard "") trialAndBasic newcomerWorld).runSchedule [0, 0, 0, 0]

theorem afterTrial_pays :
    Passes afterTrial.shared { afterTrial.shared with provider := paidOne } := by
  refine passes_of_acceptedOne ?_
  with_unfolding_all rfl

theorem apart_orders_keep_trial_first :
    ∃ c, Execution Passes (TrialsApart 7) (pool (.standard "") trialAndBasic newcomerWorld) c ∧
      c.shared.activations = [⟨1, 7, .trial⟩] ∧ openPaid 7 c.shared = 1 ∧
        TrialFirst 7 c.shared := by
  have hrun : Execution Passes (TrialsApart 7) (pool (.standard "") trialAndBasic newcomerWorld)
      (Config.runSchedule ⟨afterTrial.threads, { afterTrial.shared with provider := paidOne }⟩
        [3, 3, 1, 1, 1]) :=
    ((runSchedule_execution _ _ (by decide +kernel)).trans
      (environment_execution afterTrial afterTrial_pays)).trans
      (runSchedule_execution _ _ (by decide +kernel))
  exact ⟨_, hrun, by decide +kernel, by decide +kernel,
    trial_is_first (Setup.standard_reliable "") (by decide) newcomerWorld_booked hrun⟩

end TrialEligibility
