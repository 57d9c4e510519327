import DrFrakeVpn.HandlerEffects

/-! # The steps of an order

Which site of `CreatePayment` follows which, what each of them has found out, and that
every step is one of the effects. -/
namespace OrderEffects

open SharedPrograms FaultyTransactions GoValues Prog
open BackendModels BackendWorld SubscriptionActivation PaymentCreation
open ConfirmationEffects HandlerEffects

variable {cfg : Setup} {site : CreateSite} {promo : Option ℕ} {plan : PlanType} {u : ℕ}

theorem follows_none : Follows u plan promo site none := .inl rfl

variable {site' : CreateSite}

theorem follows_some (h : rank site < rank site')
    (ho : promo = none ∨ rank site' ≤ rank .promoUses ∨ rank .promoUses ≤ rank site) :
    Follows u plan promo site (some (.createPayment u plan promo site')) :=
  .inr ⟨promo, site', rfl, h, .inl rfl, ho⟩

theorem follows_later (h : rank .promoUses ≤ rank site ∧ rank site < rank site') :
    Follows u plan promo site (some (.createPayment u plan promo site')) :=
  follows_some h.2 (.inr (.inr h.1))

theorem check_obeys {α β : Type} {f} {next : β → Handler α} (hq : ∀ w, (f w).2 = w)
    (hf : ∀ w, Keeps w₀ w → Follows u plan promo site (next (f w).1).label?)
    (hc : ∀ w, Keeps w₀ w → Checked w u plan promo (next (f w).1).label? site)
    (h : ∀ w, Keeps w₀ w → Obedient cfg (next (f w).1) w) :
    Obedient cfg (.act (.createPayment u plan promo site) f next) w₀ := by
  refine .act fun w hw => ?_
  rw [hq w]
  exact ⟨.check (hf w hw) (hc w hw), h w hw⟩

theorem storeOrder_obeys (h : cfg.Reliable) (u : ℕ) (req : CreatePaymentRequest)
    (app : PromoApplication) :
    Obedient cfg (storeOrder cfg u req app ykResp) w₀ := by
  unfold storeOrder
  simp only [exec1_reliable h, bind_eq, Prog.atom_bind]
  refine .act fun w _ => ?_
  dsimp only [createPaymentOf]
  cases ht : w.db.payments.insert _ with
  | none => exact ⟨.check follows_none trivial, .done _ _⟩
  | some t =>
    exact ⟨.stored ht (fun _ => rfl) (fun _ => rfl) (fun _ => rfl) (fun _ => rfl) (fun _ => rfl),
      .done _ _⟩

theorem freeConfirm_obeys (h : cfg.Reliable) (u : ℕ) (uuid : String) (req : CreatePaymentRequest)
    (app : PromoApplication) {next : Except DbError Payment → Handler Response}
    (hn : ∀ r, ∃ a, next r = .done a) (w₀ : World) :
    Obedient cfg ((dbTransaction cfg
      (.createPayment u req.plan (app.promoCode.map (·.id)) .freeConfirm)
      (freeConfirmation cfg u uuid req app now)).bind next) w₀ := by
  simp only [dbTransaction, transaction, Prog.atom_bind, h _, Bool.false_eq_true, if_false]
  refine .act fun w _ => ?_
  have he := exec_freeConfirmation h u uuid req app now w
  dsimp only [transact] at he ⊢
  rw [he]
  cases ht : w.db.payments.insert _ with
  | none =>
    obtain ⟨a, ha⟩ := hn (.error .constraint)
    rw [ha]
    exact ⟨.check follows_none trivial, .done _ _⟩
  | some t =>
    obtain ⟨a, ha⟩ := hn (.ok _)
    rw [ha]
    exact ⟨.free ht (fun _ => rfl) (fun _ => rfl) (fun _ => rfl) (fun _ => rfl) (fun _ => rfl)
      (fun _ => rfl), .done _ _⟩

theorem placeOrder_label (u : ℕ) (uuid : String) (req : CreatePaymentRequest) :
    (placeOrder cfg u uuid req app).label? =
      some (.createPayment u req.plan (app.promoCode.map (·.id))
        (if app.finalAmount = 0 then .confirmTime else .loadUser)) := by
  unfold placeOrder
  by_cases hf : app.finalAmount = 0
  · simp only [hf, if_true]
    rfl
  · simp only [hf, if_false]
    rfl

theorem placeOrder_obeys (h : cfg.Reliable) (u : ℕ) (uuid : String) (req : CreatePaymentRequest)
    (w₀ : World) : Obedient cfg (placeOrder cfg u uuid req app) w₀ := by
  unfold placeOrder
  split
  · refine check_obeys (fun _ => rfl) (fun _ _ => follows_later (by decide)) (fun _ _ => trivial) ?_
    intro w _
    refine freeConfirm_obeys h u uuid req app ?_ w
    rintro (_ | p)
    · exact ⟨_, rfl⟩
    · exact ⟨_, rfl⟩
  · simp only [exec1_reliable h, postPayment, bind_eq, Prog.atom_bind]
    refine .act fun w _ => ?_
    dsimp only [firstOf]
    cases w.db.users.byId u with
    | none => exact ⟨.check follows_none trivial, .done _ _⟩
    | some user =>
      refine ⟨.check (follows_later (by decide)) trivial, ?_⟩
      refine .act fun w₁ _ => ?_
      cases hans : w₁.provider.answers with
      | nil => exact ⟨.check follows_none trivial, .done _ _⟩
      | cons a rest =>
        cases a with
        | transportError => exact ⟨.ordered _ _ follows_none, .done _ _⟩
        | response status body =>
          dsimp only
          split
          · exact ⟨.ordered _ _ follows_none, .done _ _⟩
          · exact ⟨.ordered _ _ (follows_later (by decide)), storeOrder_obeys h u req app⟩

@[simp] theorem orderWithPromo_ok :
    orderWithPromo cfg u uuid req (.ok app) = placeOrder cfg u uuid req app := rfl

@[simp] theorem orderWithPromo_error :
    orderWithPromo cfg u uuid req (.error message) = .done (respondError 400 message) := rfl

theorem applyDiscount_promo (promo : PromoCode) (amount : ℚ) :
    (applyDiscount promo amount).promoCode = some promo := by
  simp [applyDiscount, apply_ite PromoApplication.promoCode]

theorem placeOrder_follows (u : ℕ) (uuid : String) (req : CreatePaymentRequest) (promo : PromoCode)
    (amount : ℚ) (hs : rank .promoUses ≤ rank site ∧ rank site < 5) :
    Follows u req.plan (some promo.id) site
      (placeOrder cfg u uuid req (applyDiscount promo amount)).label? := by
  rw [placeOrder_label, applyDiscount_promo]
  refine follows_later ⟨hs.1, ?_⟩
  split <;> exact hs.2

theorem promoUsable_obeys (h : cfg.Reliable) (u : ℕ) (uuid : String) (req : CreatePaymentRequest)
    (promo : PromoCode) (amount : ℚ)
    (hpromo : ∃ c ∈ w₀.db.promoCodes.rows, SameSettings promo c) :
    Obedient cfg ((promoUsable cfg u req.plan promo amount).bind
      (orderWithPromo cfg u uuid req)) w₀ := by
  unfold promoUsable
  simp only [countOrZero, exec1_reliable h, bind_eq, atom_bind, act_bind]
  refine .act fun w hw => ?_
  obtain ⟨c₀, hc₀, hset₀⟩ := hpromo
  obtain ⟨c, hc, hset⟩ := hw.promos c₀ hc₀
  have hsame : SameSettings promo c := by
    rw [hset₀] at hset
    exact hset
  have hbyId := (w.db.promoCodes.byId_some_iff).mpr ⟨hc, by rw [promo_id, hsame]⟩
  dsimp only [readOf, pure_eq, done_bind]
  by_cases hmax : 0 < promo.maxUses ∧ promo.maxUses ≤ w.db.payments.count (isPromoUse promo.id)
  · rw [if_pos hmax]
    exact ⟨.check follows_none (fun _ _ hn => absurd rfl hn), .done _ _⟩
  · rw [if_neg hmax]
    have huses : 0 < c.maxUses → (w.db.payments.count (isPromoUse promo.id) : ℤ) < c.maxUses := by
      intro hpos
      rw [hsame] at hpos ⊢
      exact not_le.mp fun hle => hmax ⟨hpos, hle⟩
    by_cases hplan : promoAppliesToPlan promo req.plan
    · by_cases honce : promo.oncePerUser
      · simp only [hplan, honce, Bool.not_true, Bool.false_eq_true, if_false, if_true, act_bind]
        refine ⟨.check (follows_later (by decide)) ?_, ?_⟩
        · rintro id ⟨⟩ _
          exact ⟨c, hbyId, huses, fun _ => rfl⟩
        · refine .act fun w₁ _ => ?_
          dsimp only [readOf, done_bind]
          by_cases hused : 0 < w₁.db.payments.count (isPromoUseBy u promo.id)
          · rw [if_pos hused]
            exact ⟨.check follows_none (fun _ _ hn => absurd rfl hn), .done _ _⟩
          · rw [if_neg hused]
            refine ⟨.check (placeOrder_follows u uuid req promo amount (by decide)) ?_,
              placeOrder_obeys h u uuid req w₁⟩
            rintro id ⟨⟩ _
            exact Nat.eq_zero_of_not_pos hused
      · simp only [hplan, honce, Bool.not_true, Bool.false_eq_true, if_false, Prog.done_bind]
        refine ⟨.check (placeOrder_follows u uuid req promo amount (by decide)) ?_,
          placeOrder_obeys h u uuid req w⟩
        rintro id ⟨⟩ _
        refine ⟨c, hbyId, huses, ?_⟩
        intro hc'
        rw [hsame] at hc'
        exact absurd hc' honce
    · simp only [hplan, Bool.not_false, if_true]
      exact ⟨.check follows_none (fun _ _ hn => absurd rfl hn), .done _ _⟩

theorem promoFound_follows (u : ℕ) (plan : PlanType) (id : ℕ)
    (hs : 1 < rank site ∧ rank site ≤ rank .promoUses) :
    Follows u plan none .promoFind (some (.createPayment u plan (some id) site)) :=
  .inr ⟨some id, site, rfl, hs.1, .inr rfl, .inr (.inl hs.2)⟩

theorem validatePromoCode_obeys (h : cfg.Reliable) (u : ℕ) (uuid : String)
    (req : CreatePaymentRequest) (amount : ℚ) (w₀ : World) :
    Obedient cfg ((validatePromoCode cfg u req.plan req.promoCode amount).bind
      (orderWithPromo cfg u uuid req)) w₀ := by
  unfold validatePromoCode
  generalize normalizePromoCode req.promoCode = code
  by_cases hc : code = ""
  · simp only [hc, if_true, pure_eq, done_bind, orderWithPromo_ok]
    exact placeOrder_obeys h u uuid req w₀
  · by_cases hm : matchesPromoCodePattern code
    swap
    · simp only [hc, hm, if_false, Bool.not_false, if_true, pure_eq, done_bind,
        orderWithPromo_error]
      exact .done _ _
    · simp only [hc, hm, Bool.not_true, exec1_reliable h, readClock, bind_eq, Prog.atom_bind]
      refine .act fun w _ => ?_
      dsimp only [firstOf]
      cases hp : w.db.promoCodes.first? _ with
      | none => exact ⟨.check follows_none trivial, .done _ _⟩
      | some promo =>
        have hm := (w.db.promoCodes.first_some hp).1
        by_cases ha : promo.active
        · simp only [ha, Bool.not_true, Bool.false_eq_true, if_false]
          cases promo.expiresAt with
          | none =>
            exact ⟨.check (promoFound_follows u req.plan promo.id (by decide)) trivial,
              promoUsable_obeys h u uuid req promo amount ⟨promo, hm, rfl⟩⟩
          | some expiresAt =>
            refine ⟨.check (promoFound_follows u req.plan promo.id (by decide)) trivial, ?_⟩
            refine .act fun w₁ hw₁ => ?_
            dsimp only
            split
            · exact ⟨.check follows_none trivial, .done _ _⟩
            · exact ⟨.check (follows_some (by decide) (.inr (.inl le_rfl))) trivial,
                promoUsable_obeys h u uuid req promo amount (hw₁.promos promo hm)⟩
        · simp only [ha, Bool.not_false, if_true]
          exact ⟨.check follows_none trivial, .done _ _⟩

theorem priceOrder_obeys (h : cfg.Reliable) (u : ℕ) (uuid : String) (req : CreatePaymentRequest)
    (w₀ : World) : Obedient cfg (priceOrder cfg u uuid req) w₀ := by
  unfold priceOrder
  split
  · exact .done _ _
  · next info _ =>
    exact validatePromoCode_obeys h u uuid req info.amount w₀

variable (cfg) in
theorem priceOrder_label (u : ℕ) (uuid : String) (req : CreatePaymentRequest) :
    (priceOrder cfg u uuid req).label? = none ∨ ∃ site, 0 < rank site ∧
      (priceOrder cfg u uuid req).label? = some (.createPayment u req.plan none site) := by
  unfold priceOrder
  split
  · exact .inl rfl
  · next info _ =>
    unfold validatePromoCode
    generalize normalizePromoCode req.promoCode = code
    by_cases hc : code = ""
    · simp only [hc, if_true, pure_eq, bind_eq, done_bind, orderWithPromo_ok]
      refine .inr ⟨_, ?_, placeOrder_label u uuid req⟩
      split <;> decide
    · by_cases hm : matchesPromoCodePattern code
      · simp only [hc, hm, if_false, Bool.not_true, Bool.false_eq_true]
        exact .inr ⟨.promoFind, by decide, rfl⟩
      · simp only [hc, hm, if_false, Bool.not_false, if_true, pure_eq, bind_eq,
          Prog.done_bind, orderWithPromo_error]
        exact .inl rfl

theorem createPayment_obeys (h : cfg.Reliable) (u : ℕ) (uuid : String)
    (req : Option CreatePaymentRequest) (w₀ : World) :
    Obedient cfg (createPayment cfg u uuid req) w₀ := by
  unfold createPayment
  cases req with
  | none => exact .done _ _
  | some req =>
    dsimp only
    split
    · next hplan =>
      simp only [trialAvailableForUser, exec1_reliable h, bind_eq, atom_bind,
        act_bind]
      refine .act fun w _ => ?_
      dsimp only [readOf, pure_eq, Prog.done_bind]
      by_cases hz : w.db.payments.count (isPurchase u) = 0
      · simp only [hz, decide_true, Bool.not_true, Bool.false_eq_true, if_false]
        refine ⟨.check ?_ (fun _ => hz), priceOrder_obeys h u uuid req w⟩
        rcases priceOrder_label cfg u uuid req with hl | ⟨site, hs, hl⟩
        · rw [hl]
          exact follows_none
        · rw [hl, hplan]
          exact follows_some hs (.inl rfl)
      · simp only [hz, decide_false, Bool.not_false, if_true]
        exact ⟨.check follows_none (fun hn => absurd rfl hn), .done _ _⟩
    · exact priceOrder_obeys h u uuid req w₀

theorem createPayment_label (u : ℕ) (uuid : String) (req : Option CreatePaymentRequest) :
    (createPayment cfg u uuid req).label? = none ∨ ∃ plan site,
      (createPayment cfg u uuid req).label? = some (.createPayment u plan none site) ∧
        (plan = .trial → site = .trialCount) := by
  unfold createPayment
  cases req with
  | none => exact .inl rfl
  | some req =>
    dsimp only
    split
    · exact .inr ⟨.trial, .trialCount, rfl, fun _ => rfl⟩
    · next hplan =>
      rcases priceOrder_label cfg u uuid req with hl | ⟨site, _, hl⟩
      · exact .inl hl
      · exact .inr ⟨req.plan, site, hl, fun ht => absurd ht hplan⟩

section Orders

variable (u : ℕ) (uuid : String)

def isOrder (l : Stmt) : Prop := (order? l).isSome = true

theorem createPayment_only (req : Option CreatePaymentRequest) :
    (createPayment cfg u uuid req).Only isOrder := by
  have horders : PaymentCreation.Orders cfg u fun l _ _ => isOrder l :=
    ⟨fun _ _ _ _ => rfl, fun _ _ _ _ => rfl, fun _ _ _ _ => rfl,
      fun _ _ _ _ => Prog.does_atom fun _ => rfl⟩
  exact (does_createPayment horders uuid req).only fun _ _ _ hl => hl

end Orders

end OrderEffects
