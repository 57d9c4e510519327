import DrFrakeVpn.ClientEffects

/-! # The limits of a promo code over every interleaving

The checks of an order count succeeded payments only. The bound that is kept counts every
payment with the code that may still succeed and every request on its way to one. -/
namespace PromoLimits

open SharedPrograms RecordTables List
open BackendModels BackendWorld SubscriptionActivation PaymentHandlers PaymentCreation
open HandlerEffects RequestEffects ClientEffects

variable {cfg : Setup}

def carries (id : ℕ) (who : ℕ → Bool) (p : Payment) : Bool :=
  p.promoCodeID = some id && who p.userID && p.status ≠ .cancelled

def underway (id : ℕ) (who : ℕ → Bool) (site : CreateSite) : Option Stmt → Bool
  | some (.createPayment u _ promo site') => promo = some id && who u && rank site < rank site'
  | _ => false

def booked (id : ℕ) (who : ℕ → Bool) (site : CreateSite) (ls : List (Option Stmt))
    (w : World) : ℕ :=
  w.db.payments.count (carries id who) + ls.countP (underway id who site)

def anyone : ℕ → Bool := fun _ => true

variable {ls : List (Option Stmt)} {w w' : World} {n : Option Stmt}

section OneAction

variable {id : ℕ} {who : ℕ → Bool} {site : CreateSite}

theorem underway_outside (hn : OutsideOrders n) : underway id who site n = false := by
  cases n with
  | none => rfl
  | some l =>
    have hl := hn l rfl
    cases l with
    | createPayment => cases hl
    | _ => rfl

variable {promo : Option ℕ} {site' : CreateSite} {plan : PlanType}

theorem underway_order :
    underway id who site (some (.createPayment u plan promo site')) ↔
      promo = some id ∧ who u ∧ rank site < rank site' := by
  simp [underway, and_assoc]

structure Enters (id : ℕ) (who : ℕ → Bool) (site : CreateSite) (w : World) (l : Stmt)
    (n : Option Stmt) : Prop where
  order : ∃ u plan site', l = .createPayment u plan (some id) site' ∧ who u = true ∧
    rank .promoUses ≤ rank site' ∧ rank site' ≤ rank site ∧ Checked w u plan (some id) n site'
  underway : underway id who site n = true

theorem underway_check (hsite : rank .promoUses ≤ rank site) (hf : Follows u plan promo site' n)
    (hc : Checked w u plan promo n site') (hn : underway id who site n) :
    underway id who site (some (.createPayment u plan promo site')) ∨
      Enters id who site w (.createPayment u plan promo site') n := by
  rcases hf with rfl | ⟨promo', site'', rfl, hrank, hpromo, huses⟩
  · cases hn
  obtain ⟨rfl, hwho, hlater⟩ := underway_order.mp hn
  -- the code was known before, since the request is past the count of its uses
  have hpast : rank .promoUses ≤ rank site' := by
    rcases huses with huses | huses | huses
    · cases huses
    · omega
    · exact huses
  have hsame : promo = some id := by
    rcases hpromo with hpromo | rfl
    · exact hpromo.symm
    · exact absurd hpast (by decide)
  subst hsame
  by_cases hbefore : rank site < rank site'
  · exact .inl (underway_order.mpr ⟨rfl, hwho, hbefore⟩)
  · exact .inr ⟨⟨u, plan, site', rfl, hwho, hpast, by omega, hc⟩, hn⟩

theorem carries_update (now : ℤ) (hs : p.status = .pending) :
    carries id who ((succeededAt now).apply p) = carries id who p := by
  simp only [carries, succeededAt, hs]
  rfl

variable (who site) in
/-- An action changes the number of booked uses by at most one, and only when a request
passes a check. -/
theorem booked_step (hsite : rank .promoUses ≤ rank site ∧ rank site < rank .store)
    (hc : CancelledByProvider (fun p => p.promoCodeID = some id) w) (hi : ls[i]? = some (some l))
    (hb : Booking w l w' n) :
    booked id who site (ls.set i n) w' ≤ booked id who site ls w ∨
      booked id who site (ls.set i n) w' ≤ booked id who site ls w + 1 ∧
        Enters id who site w l n := by
  have hlabels := countP_set_add (underway id who site) hi n
  have houtside : order? l = none → underway id who site (some l) = false := by
    intro hl
    exact underway_outside (outsideOrders_some hl)
  have hadded : ∀ {u : ℕ} {plan : PlanType} {promo : Option ℕ} {status : PaymentStatus}
      {mk : ℕ → Payment} {last : CreateSite}, rank site < rank last →
      l = .createPayment u plan promo last → n = none → NewRow u plan promo status mk →
      w.db.payments.insert mk = some w'.db.payments →
      booked id who site (ls.set i n) w' ≤ booked id who site ls w := by
    intro u plan promo status mk last hlast hl hn hrow ht
    subst hl hn
    have hcount := w.db.payments.count_insert ht (carries id who)
    have hone : carries id who (mk w.db.payments.seq) →
        underway id who site (some (.createPayment u plan promo last)) := by
      intro hcar
      simp only [carries, hrow.promoCodeID, hrow.userID, Bool.and_eq_true,
        decide_eq_true_eq] at hcar
      exact underway_order.mpr ⟨hcar.1.1, hcar.1.2, hlast⟩
    have hnone : underway id who site none = false := rfl
    rw [hnone] at hlabels
    unfold booked
    by_cases hcar : carries id who (mk w.db.payments.seq)
    · rw [hone hcar] at hlabels
      simp only [hcar, if_true, Bool.false_eq_true, if_false] at hlabels hcount
      omega
    · simp only [hcar, Bool.false_eq_true, if_false] at hlabels hcount
      omega
  cases hb with
  | other hl hn hp _ =>
    left
    rw [houtside hl, underway_outside hn] at hlabels
    simp only [booked, hp]
    omega
  | @check u plan promo site' hl hf hchk hp _ =>
    subst hl
    simp only [booked, hp]
    by_cases hn : underway id who site n
    · rcases underway_check hsite.1 hf hchk hn with hbefore | henter
      · left
        simp only [hn, hbefore, if_true] at hlabels
        omega
      · right
        refine ⟨?_, henter⟩
        simp only [hn, if_true] at hlabels
        omega
    · left
      simp only [hn, Bool.false_eq_true, if_false] at hlabels
      omega
  | order hl hn hrow ht _ => exact .inl (hadded hsite.2 hl hn hrow ht)
  | free hl hn hrow _ ht _ =>
    have hlast : rank site < rank .freeConfirm := hsite.2
    exact .inl (hadded hlast hl hn hrow ht)
  | settle p hl hn hm hs hpaid hp _ =>
    left
    have hbyId : w.db.payments.byId p.id = some p := w.db.payments.byId_some_iff.mpr ⟨hm, rfl⟩
    have hcount := w.db.payments.count_updateId hbyId (succeededAt w.now) (carries id who)
    have hsame : carries id who ((succeededAt w.now).apply p) = carries id who p := by
      by_cases hpromo : p.promoCodeID = some id
      · exact carries_update w.now (pending_of_settle hc hm hpromo hs hpaid)
      · simp [carries, succeededAt, hpromo]
    rw [hsame] at hcount
    rw [houtside hl, underway_outside hn] at hlabels
    simp only [booked, hp]
    omega
  | cancel c hl hn _ hp _ =>
    left
    have hcount := w.db.payments.count_update_le (c := c) (q := carries id who)
      (f := setPaymentStatus .cancelled) (by simp [carries, setPaymentStatus])
    rw [houtside hl, underway_outside hn] at hlabels
    simp only [booked, hp]
    omega

end OneAction

/-- The settings that count: how often, and whether once for each user. -/
structure Limits where
  maxUses : ℤ
  oncePerUser : Bool

def LimitedBy (id : ℕ) (lim : Limits) (w : World) : Prop :=
  ∃ c, w.db.promoCodes.byId id = some c ∧ c.maxUses = lim.maxUses ∧
    c.oncePerUser = lim.oncePerUser

structure LimitsHold (id : ℕ) (lim : Limits) (w : World) : Prop where
  total : 0 < lim.maxUses → (w.db.payments.count (isPromoUse id) : ℤ) ≤ lim.maxUses
  perUser : lim.oncePerUser = true → ∀ u, w.db.payments.count (isPromoUseBy u id) ≤ 1

structure Within (id : ℕ) (lim : Limits) (ls : List (Option Stmt)) (w : World) : Prop where
  settings : LimitedBy id lim w
  cancelled : CancelledByProvider (fun p => p.promoCodeID = some id) w
  total : 0 < lim.maxUses → (booked id anyone .promoUses ls w : ℤ) ≤ lim.maxUses
  perUser : lim.oncePerUser = true → ∀ u, booked id (· = u) .promoUserUses ls w ≤ 1

variable {id : ℕ} {lim : Limits}

theorem Within.limitsHold (h : Within id lim ls w) : LimitsHold id lim w := by
  constructor
  · intro hpos
    have hle : w.db.payments.count (isPromoUse id) ≤ w.db.payments.count (carries id anyone) := by
      refine countP_mono_left ?_
      intro p _ hp
      simp only [isPromoUse, Bool.and_eq_true, decide_eq_true_eq] at hp
      simp [carries, anyone, hp.1, hp.2]
    have := h.total hpos
    unfold booked at this
    omega
  · intro honce u
    have hle : w.db.payments.count (isPromoUseBy u id) ≤
        w.db.payments.count (carries id (· = u)) := by
      refine countP_mono_left ?_
      intro p _ hp
      simp only [isPromoUseBy, Bool.and_eq_true, decide_eq_true_eq] at hp
      simp [carries, hp.1.1, hp.1.2, hp.2]
    have := h.perUser honce u
    unfold booked at this
    omega

/-- A check of a request that passes on the succeeded payments would pass as well if open
payments and requests on their way to an order were counted. -/
def Reserving (id : ℕ) (lim : Limits) : Guard World Stmt := fun l ls w =>
  ∀ u plan,
    (l = .createPayment u plan (some id) .promoUses → 0 < lim.maxUses →
      (w.db.payments.count (isPromoUse id) : ℤ) < lim.maxUses →
      (booked id anyone .promoUses ls w : ℤ) < lim.maxUses) ∧
    (l = .createPayment u plan (some id) .promoUserUses → lim.oncePerUser = true →
      w.db.payments.count (isPromoUseBy u id) = 0 →
      booked id (· = u) .promoUserUses ls w = 0)

instance (id : ℕ) (lim : Limits) (l : Stmt) (ls : List (Option Stmt)) (w : World) :
    Decidable (Reserving id lim l ls w) :=
  match h : order? l with
  | none => isTrue (by
      intro u plan
      constructor <;> (rintro rfl; cases h))
  | some (u, plan, promo, site) =>
    decidable_of_iff
      ((promo = some id → site = .promoUses → 0 < lim.maxUses →
        (w.db.payments.count (isPromoUse id) : ℤ) < lim.maxUses →
        (booked id anyone .promoUses ls w : ℤ) < lim.maxUses) ∧
      (promo = some id → site = .promoUserUses → lim.oncePerUser = true →
        w.db.payments.count (isPromoUseBy u id) = 0 →
        booked id (· = u) .promoUserUses ls w = 0)) (by
      obtain rfl := order_some h
      constructor
      · intro hc v plan'
        constructor
        · rintro ⟨⟩
          exact hc.1 rfl rfl
        · rintro ⟨⟩
          exact hc.2 rfl rfl
      · intro hr
        refine ⟨?_, ?_⟩
        · rintro rfl rfl
          exact (hr u plan).1 rfl
        · rintro rfl rfl
          exact (hr u plan).2 rfl)

theorem limitedBy_keeps (h : LimitedBy id lim w) (hk : Keeps w w') : LimitedBy id lim w' := by
  obtain ⟨c, hc, hmax, honce⟩ := h
  obtain ⟨hm, hid⟩ := w.db.promoCodes.byId_some_iff.mp hc
  obtain ⟨d, hd, hset⟩ := hk.promos c hm
  refine ⟨d, w'.db.promoCodes.byId_some_iff.mpr ⟨hd, ?_⟩, ?_, ?_⟩
  · rw [hset]
    exact hid
  · rw [hset]
    exact hmax
  · rw [hset]
    exact honce

variable {site : CreateSite}

theorem rank_eq_promoUses (h : rank .promoUses ≤ rank site) (h' : rank site ≤ rank .promoUses) :
    site = .promoUses := by
  cases site <;> first | rfl | exact absurd h (by decide) | exact absurd h' (by decide)

theorem within_total (h : Within id lim ls w) (hi : ls[i]? = some (some l))
    (ha : Reserving id lim l ls w) (hb : Booking w l w' n) (hpos : 0 < lim.maxUses) :
    (booked id anyone .promoUses (ls.set i n) w' : ℤ) ≤ lim.maxUses := by
  have hbound := h.total hpos
  rcases booked_step anyone .promoUses (by decide) h.cancelled hi hb with hle | ⟨hle, henter⟩
  · omega
  obtain ⟨u, plan, site, rfl, _, hge, hle', hchk⟩ := henter.order
  obtain rfl := rank_eq_promoUses hge hle'
  have hne : n ≠ none := by
    rintro rfl
    cases henter.underway
  obtain ⟨c, hc, hpass, _⟩ := hchk id rfl hne
  obtain ⟨c', hc', hmax, _⟩ := h.settings
  obtain rfl := Option.some.inj (hc.symm.trans hc')
  have hroom := (ha u plan).1 rfl hpos (by rw [← hmax]; exact hpass (by omega))
  omega

theorem within_perUser (h : Within id lim ls w) (hi : ls[i]? = some (some l))
    (ha : Reserving id lim l ls w) (hb : Booking w l w' n) (honce : lim.oncePerUser) (u : ℕ) :
    booked id (· = u) .promoUserUses (ls.set i n) w' ≤ 1 := by
  have hbound := h.perUser honce u
  rcases booked_step (· = u) .promoUserUses (by decide) h.cancelled hi hb with hle | ⟨hle, henter⟩
  · omega
  obtain ⟨v, plan, site, rfl, hv, hge, hle', hchk⟩ := henter.order
  obtain rfl := of_decide_eq_true hv
  have hne : n ≠ none := by
    rintro rfl
    cases henter.underway
  cases site with
  | promoUses =>
    -- a code for one use each is checked for the user next, so nothing is skipped
    obtain ⟨c, hc, _, hnext⟩ := hchk id rfl hne
    obtain ⟨c', hc', _, hset⟩ := h.settings
    obtain rfl := Option.some.inj (hc.symm.trans hc')
    have hpast := henter.underway
    rw [hnext (hset.trans honce), underway_order] at hpast
    exact absurd hpast.2.2 (by decide)
  | promoUserUses =>
    have hroom := (ha v plan).2 rfl honce (hchk id rfl hne)
    omega
  | _ => first | exact absurd hge (by decide) | exact absurd hle' (by decide)

variable {who : ℕ → Bool}

theorem booked_passes (hp : Passes w w') : booked id who site ls w' = booked id who site ls w := by
  simp [booked, hp.db]

theorem booked_start (hclient : ∀ r ∈ requests, isClient r) (w : World) :
    booked id who site (pool cfg requests w).labels w = booked id who site [] w := by
  rw [booked, countP_start hclient (fun _ hn => underway_outside hn), booked, countP_nil]
  intro u plan site' _ hunder
  cases (underway_order.mp hunder).1

/-- Over every interleaving of orders, webhooks and reconciliations in which the checks
reserve, from a state where the booked uses respect the limits, the stored uses do. -/
theorem promo_limits_hold (h : cfg.Reliable) {requests : List Request}
    (hclient : ∀ r ∈ requests, isClient r = true) {id : ℕ} {lim : Limits} {w : World}
    (hstart : Within id lim [] w) {c : Config World Stmt}
    (he : Execution Passes (Reserving id lim) (pool cfg requests w) c) :
    LimitsHold id lim c.shared := by
  have hwithin : Within id lim c.labels c.shared := by
    refine pool_invariant h
      (fun r hr l hl => clientLabel_of_owns (hclient r hr) hl) ?_ ?_ ?_ he
    · intro ls i w l w' n hl hJ hi ha heff
      have hb := client_booking hl heff
      exact ⟨limitedBy_keeps hJ.settings heff.keeps,
        cancelledByProvider_step hJ.cancelled heff.keeps hb,
        within_total hJ hi ha hb, fun honce u => within_perUser hJ hi ha hb honce u⟩
    · intro ls w w' hJ hp
      refine ⟨limitedBy_keeps hJ.settings (.of_passes hp),
        cancelledByProvider_passes hJ.cancelled hp, ?_, ?_⟩
      · intro hpos
        rw [booked_passes hp]
        exact hJ.total hpos
      · intro honce u
        rw [booked_passes hp]
        exact hJ.perUser honce u
    · refine ⟨hstart.settings, hstart.cancelled, ?_, ?_⟩
      · intro hpos
        rw [booked_start hclient]
        exact hstart.total hpos
      · intro honce u
        rw [booked_start hclient]
        exact hstart.perUser honce u
  exact hwithin.limitsHold

def singleUse : PromoCode := ⟨1, "SALE", 50, 1, 0, true, "all", true, none⟩

def saleWorld : World :=
  .start { Db.empty with
    users := ⟨[⟨7, "a@example.org"⟩], 8, User.valid_one _⟩
    promoCodes := ⟨[singleUse], 2, by decide⟩ } 0 acceptingTwo

def twoOrders : List Request :=
  [.create 7 "a" (some ⟨.basic, "sale", PlanType.basic_ne_free⟩),
    .create 7 "b" (some ⟨.vip, "sale", PlanType.vip_ne_free⟩),
    succeededEvent "pay-1", succeededEvent "pay-2"]

def afterOrders : Config World Stmt :=
  (pool (.standard "") twoOrders saleWorld).runSchedule [0, 0, 0, 0, 0, 0, 1, 1, 1, 1, 1, 1]

theorem afterOrders_pays :
    Passes afterOrders.shared { afterOrders.shared with provider := paidTwo } := by
  refine passes_of_acceptedTwo ?_
  with_unfolding_all rfl

theorem saleWorld_within : Within 1 ⟨1, true⟩ [] saleWorld := by
  refine ⟨⟨_, rfl, rfl, rfl⟩, ?_, fun _ => by decide, fun _ _ => Nat.zero_le 1⟩
  intro p hp
  exact absurd hp (by simp [saleWorld, World.start, Db.empty, Table.empty])

theorem code_is_used_twice :
    (Setup.standard "").Reliable ∧ (∀ r ∈ twoOrders, isClient r = true) ∧
      Within 1 ⟨1, true⟩ [] saleWorld ∧
      ∃ c, Execution Passes Unguarded (pool (.standard "") twoOrders saleWorld) c ∧
        ¬ LimitsHold 1 ⟨1, true⟩ c.shared := by
  refine ⟨Setup.standard_reliable "", by decide, saleWorld_within,
    Config.runSchedule ⟨afterOrders.threads, { afterOrders.shared with provider := paidTwo }⟩
      [2, 2, 3, 3], ?_, ?_⟩
  · exact ((runSchedule_execution _ _ (schedule_unguarded _ _)).trans
      (environment_execution afterOrders afterOrders_pays)).trans
      (runSchedule_execution _ _ (schedule_unguarded _ _))
  · intro hlimits
    exact absurd (hlimits.total (by decide)) (by decide +kernel)

def afterFirst : Config World Stmt :=
  (pool (.standard "") twoOrders saleWorld).runSchedule [0, 0, 0, 0, 0, 0]

theorem afterFirst_pays :
    Passes afterFirst.shared { afterFirst.shared with provider := paidOne } := by
  refine passes_of_acceptedOne ?_
  with_unfolding_all rfl

/-- The second order is refused, and the limit is kept. -/
theorem reserving_orders_keep_limit :
    ∃ c, Execution Passes (Reserving 1 ⟨1, true⟩) (pool (.standard "") twoOrders saleWorld) c ∧
      c.shared.db.payments.count (isPromoUse 1) = 1 ∧ LimitsHold 1 ⟨1, true⟩ c.shared := by
  have hrun : Execution Passes (Reserving 1 ⟨1, true⟩) (pool (.standard "") twoOrders saleWorld)
      (Config.runSchedule ⟨afterFirst.threads, { afterFirst.shared with provider := paidOne }⟩
        [2, 2, 1, 1, 1]) :=
    ((runSchedule_execution _ _ (by decide +kernel)).trans
      (environment_execution afterFirst afterFirst_pays)).trans
      (runSchedule_execution _ _ (by decide +kernel))
  exact ⟨_, hrun, by decide +kernel,
    promo_limits_hold (Setup.standard_reliable "") (by decide) saleWorld_within hrun⟩

end PromoLimits
