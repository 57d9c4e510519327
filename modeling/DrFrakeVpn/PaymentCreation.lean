import DrFrakeVpn.PaymentHandlers

/-! # Promo codes and the creation of payments -/
namespace PaymentCreation

open SharedPrograms GoValues
open BackendModels BackendWorld SubscriptionActivation

def normalizePromoCode (code : String) : String := toUpper (trimSpace code)

/-- The pattern `^[A-Z0-9_-]{3,32}$`. -/
def matchesPromoCodePattern (code : String) : Bool :=
  3 ≤ code.toList.length && code.toList.length ≤ 32 &&
    code.toList.all fun c => ('A' ≤ c && c ≤ 'Z') || ('0' ≤ c && c ≤ '9') || c = '_' || c = '-'

/-- Items that name no priced plan and repeated items are dropped; the rest is sorted. -/
def knownPlans (items seen : List String) : List String :=
  match items with
  | [] => []
  | item :: rest =>
    let plan := trimSpace item
    if plan = "" ∨ plan ∈ seen ∨ ((PlanType.ofName? plan).bind planPrices).isNone then
      knownPlans rest seen
    else plan :: knownPlans rest (plan :: seen)

def normalizeApplicablePlans (value : String) : String :=
  let value := toLower (trimSpace value)
  if value = "" ∨ value = "all" then "all"
  else
    let plans := knownPlans (split value ',') []
    if plans = [] then "all"
    else String.intercalate "," (plans.insertionSort fun a b => a ≤ b)

def promoAppliesToPlan (promo : PromoCode) (plan : PlanType) : Bool :=
  let applicable := normalizeApplicablePlans promo.applicablePlans
  if applicable = "all" then true
  else (split applicable ',').any fun item => trimSpace item = plan.name

structure PromoApplication where
  promoCode : Option PromoCode
  originalAmount : ℚ
  discountAmount : ℚ
  finalAmount : ℚ

/-- `math.Round`: halves go away from zero. -/
def round (x : ℚ) : ℤ := if 0 ≤ x then ⌊x + 1 / 2⌋ else ⌈x - 1 / 2⌉

def applyDiscount (promo : PromoCode) (originalAmount : ℚ) : PromoApplication :=
  let discountAmount : ℚ := round (originalAmount * promo.discountPercent) / 100
  let discountAmount := if originalAmount < discountAmount then originalAmount else discountAmount
  let finalAmount := originalAmount - discountAmount
  let finalAmount := if finalAmount < 0 then 0 else finalAmount
  if 0 < finalAmount ∧ finalAmount < 1 then
    ⟨some promo, originalAmount, originalAmount - 1, 1⟩
  else ⟨some promo, originalAmount, discountAmount, finalAmount⟩

variable (cfg : Setup)

def isPromoUseBy (userID promoCodeID : ℕ) (p : Payment) : Bool :=
  p.userID = userID && p.promoCodeID = some promoCodeID && p.status = .succeeded

/-- The two counts drop their errors and then read as zero. -/
def countOrZero (l : Stmt) (q : Payment → Bool) : Handler ℕ := do
  match ← exec1 cfg l (readOf fun db => db.payments.count q) with
  | .ok n => pure n
  | .error _ => pure 0

def promoUsable (userID : ℕ) (plan : PlanType) (promo : PromoCode) (originalAmount : ℚ) :
    Handler (Except String PromoApplication) := do
  let actualUsedCount ← countOrZero cfg (.createPayment userID plan (some promo.id) .promoUses)
    (isPromoUse promo.id)
  if 0 < promo.maxUses ∧ promo.maxUses ≤ actualUsedCount then
    pure (.error "Лимит использований промокода исчерпан")
  else if !promoAppliesToPlan promo plan then
    pure (.error "Промокод не действует на выбранный тариф")
  else if promo.oncePerUser then do
    let usedCount ← countOrZero cfg (.createPayment userID plan (some promo.id) .promoUserUses)
      (isPromoUseBy userID promo.id)
    if 0 < usedCount then pure (.error "Вы уже использовали этот промокод")
    else pure (.ok (applyDiscount promo originalAmount))
  else pure (.ok (applyDiscount promo originalAmount))

def validatePromoCode (userID : ℕ) (plan : PlanType) (code : String) (originalAmount : ℚ) :
    Handler (Except String PromoApplication) :=
  let normalizedCode := normalizePromoCode code
  if normalizedCode = "" then pure (.ok ⟨none, originalAmount, 0, originalAmount⟩)
  else if !matchesPromoCodePattern normalizedCode then
    pure (.error "Промокод должен содержать 3-32 символа: латинские буквы, цифры, _ или -")
  else do
    match ← exec1 cfg (.createPayment userID plan none .promoFind)
        (firstOf fun db => db.promoCodes.first? fun p => p.code = normalizedCode) with
    | .error .recordNotFound => pure (.error "Промокод не найден")
    | .error _ => pure (.error "database error")
    | .ok promo =>
      if !promo.active then pure (.error "Промокод отключён")
      else match promo.expiresAt with
        | none => promoUsable cfg userID plan promo originalAmount
        | some expiresAt => do
          let now ← readClock (.createPayment userID plan (some promo.id) .promoExpiry)
          if expiresAt < now then pure (.error "Срок действия промокода истёк")
          else promoUsable cfg userID plan promo originalAmount

/-- A request that passed `binding:"required,oneof=trial basic basic_3m vip vip_3m"`. -/
structure CreatePaymentRequest where
  plan : PlanType
  promoCode : String
  plan_priced : plan ≠ .free

def isPurchase (userID : ℕ) (p : Payment) : Bool :=
  p.userID = userID && p.status = .succeeded &&
    p.plan ∈ [PlanType.trial, .basic, .basic3M, .vip, .vip3M]

def trialAvailableForUser (userID : ℕ) : Handler (Except DbError Bool) := do
  match ← exec1 cfg (.createPayment userID .trial none .trialCount)
      (readOf fun db => db.payments.count (isPurchase userID)) with
  | .ok successfulPayments => pure (.ok (successfulPayments = 0))
  | .error e => pure (.error e)

/-- `fmt.Sprintf("%v", v)`. -/
def sprintValue : Option Json → String
  | some (.str s) => s
  | none | some .null => "<nil>"
  | some v => cfg.sprint v

def paymentRow (userID : ℕ) (req : CreatePaymentRequest) (yk : String) (app : PromoApplication)
    (status : PaymentStatus) (confirmURL : String) (confirmedAt : Option ℤ) (createdAt : ℤ)
    (id : ℕ) : Payment where
  id := id
  createdAt := createdAt
  userID := userID
  yooKassaID := yk
  amount := app.finalAmount
  originalAmount := app.originalAmount
  discountAmount := app.discountAmount
  currency := "RUB"
  status := status
  plan := req.plan
  confirmURL := confirmURL
  confirmedAt := confirmedAt
  promoCodeID := app.promoCode.map (·.id)
  plan_priced := req.plan_priced

def createdResponse (req : CreatePaymentRequest) (p : Payment) : Response :=
  ⟨200, [("payment_id", .num p.id), ("confirmation_url", .str p.confirmURL),
    ("amount", .num p.amount), ("original_amount", .num p.originalAmount),
    ("discount_amount", .num p.discountAmount),
    ("promo_code", .str (normalizePromoCode req.promoCode)), ("plan", .str p.plan.name),
    ("status", .str (if p.status = .succeeded then "succeeded" else "pending"))]⟩

def freeConfirmation (userID : ℕ) (uuid : String) (req : CreatePaymentRequest)
    (app : PromoApplication) (now : ℤ) : DbTx Payment := do
  let createdAt := (← get).now
  let payment ← stmt cfg
    (.createPayment userID req.plan (app.promoCode.map (·.id)) .freeStore)
    (createPaymentOf (paymentRow userID req ("promo-" ++ uuid) { app with finalAmount := 0 }
      .succeeded "" (some now) createdAt))
  activateSubscriptionFromPayment cfg payment ""
  markPromoCodeUsed cfg payment
  pure payment

def storeOrder (userID : ℕ) (req : CreatePaymentRequest) (app : PromoApplication)
    (ykResp : List (String × Json)) : Handler Response := do
  let confirmURL := asString (lookup (asMap (lookup ykResp "confirmation")) "confirmation_url")
  match ← exec1 cfg (.createPayment userID req.plan (app.promoCode.map (·.id)) .store)
      (fun w => createPaymentOf (paymentRow userID req (sprintValue cfg (lookup ykResp "id")) app
        .pending confirmURL none w.now) w) with
  | .error _ => pure (respondError 500 "Не удалось сохранить платёж")
  | .ok payment => pure (createdResponse req payment)

/-- The part after the price is known: free of charge, or through the provider. -/
def placeOrder (userID : ℕ) (uuid : String) (req : CreatePaymentRequest)
    (app : PromoApplication) : Handler Response := do
  let site := Stmt.createPayment userID req.plan (app.promoCode.map (·.id))
  if app.finalAmount = 0 then
    let now ← readClock (site .confirmTime)
    match ← dbTransaction cfg (site .freeConfirm)
        (freeConfirmation cfg userID uuid req app now) with
    | .error _ => pure (respondError 500 "Не удалось применить промокод")
    | .ok payment => pure (createdResponse req payment)
  else
    match ← exec1 cfg (site .loadUser) (firstOf fun db => db.users.byId userID) with
    | .error _ => pure (respondError 500 "Не удалось получить email для чека")
    | .ok _ =>
      match ← postPayment (site .post) (fun _ w => w) with
      | .transportError => pure (respondError 500 "Не удалось создать платёж")
      | .response status body =>
        if status ≠ 200 ∧ status ≠ 201 then
          pure ⟨500, [("error", .str "Платёжная система не приняла запрос"),
            ("details", ((bindMap body).map Json.obj).getD .null)]⟩
        else storeOrder cfg userID req app ((bindMap body).getD [])

def orderWithPromo (userID : ℕ) (uuid : String) (req : CreatePaymentRequest) :
    Except String PromoApplication → Handler Response
  | .error message => pure (respondError 400 message)
  | .ok app => placeOrder cfg userID uuid req app

def priceOrder (userID : ℕ) (uuid : String) (req : CreatePaymentRequest) : Handler Response :=
  match planPrices req.plan with
  | none => pure (respondError 400 "Неизвестный тариф")
  | some priceInfo =>
    validatePromoCode cfg userID req.plan req.promoCode priceInfo.amount >>=
      orderWithPromo cfg userID uuid req

def createPayment (userID : ℕ) (uuid : String) (req : Option CreatePaymentRequest) :
    Handler Response :=
  match req with
  | none => pure (respondError 400 "Выберите тариф для оплаты")
  | some req =>
    if req.plan = .trial then do
      match ← trialAvailableForUser cfg userID with
      | .error _ => pure (respondError 500 "Не удалось проверить доступность пробного периода")
      | .ok available =>
        if !available then
          pure (respondError 409 "Пробный период доступен только новым пользователям")
        else priceOrder cfg userID uuid req
    else priceOrder cfg userID uuid req

structure Orders (userID : ℕ) (R : Stmt → World → World → Prop) : Prop where
  idle : ∀ plan promo site w, R (.createPayment userID plan promo site) w w
  post : ∀ plan promo w provider,
    R (.createPayment userID plan promo .post) w { w with provider := provider }
  store : ∀ plan promo mk w, R (.createPayment userID plan promo .store) w (createPaymentOf mk w).2
  free : ∀ uuid (req : CreatePaymentRequest) (app : PromoApplication) now, (dbTransaction cfg
    (.createPayment userID req.plan (app.promoCode.map (·.id)) .freeConfirm)
    (freeConfirmation cfg userID uuid req app now)).Does R

section Steps

variable {cfg} {userID : ℕ} {R : Stmt → World → World → Prop} (h : Orders cfg userID R)
include h

variable (plan : PlanType)

theorem does_countOrZero (promo : Option ℕ) :
    (countOrZero cfg (.createPayment userID plan promo site) q).Does R := by
  refine (does_exec1 (h.idle _ _ _) (h.idle _ _ _)).bind ?_
  rintro (_ | _) <;> exact .done _

theorem does_promoUsable (promo : PromoCode) :
    (promoUsable cfg userID plan promo amount).Does R := by
  refine (does_countOrZero h _ _).bind fun used => ?_
  split
  · exact .done _
  split
  · exact .done _
  split
  · refine (does_countOrZero h _ _).bind fun own => ?_
    split <;> exact .done _
  · exact .done _

theorem does_first {α : Type} (promo : Option ℕ) (site : CreateSite) (find : Db → Option α) :
    (exec1 cfg (.createPayment userID plan promo site) (firstOf find)).Does R := by
  refine does_exec1 (h.idle _ _ _) fun w => ?_
  unfold firstOf
  split <;> exact h.idle _ _ _ w

theorem does_validatePromoCode (code : String) (amount : ℚ) :
    (validatePromoCode cfg userID plan code amount).Does R := by
  unfold validatePromoCode
  dsimp only
  split
  · exact .done _
  split
  · exact .done _
  refine (does_first h _ _ _ _).bind fun found => ?_
  split
  · exact .done _
  · exact .done _
  split
  · exact .done _
  split
  · exact does_promoUsable h _ _
  · refine (Prog.does_atom (h.idle _ _ _)).bind fun now => ?_
    split
    · exact .done _
    · exact does_promoUsable h _ _

variable (uuid : String)

theorem does_placeOrder (req : CreatePaymentRequest) (app : PromoApplication) :
    (placeOrder cfg userID uuid req app).Does R := by
  unfold placeOrder
  split
  · refine (Prog.does_atom (h.idle _ _ _)).bind fun now => (h.free _ _ _ _).bind ?_
    rintro (_ | _) <;> exact .done _
  refine (does_first h _ _ _ _).bind ?_
  rintro (_ | _)
  · exact .done _
  refine Prog.Does.bind (Prog.does_atom fun w => ?_) ?_
  · split
    · exact h.idle _ _ _ w
    · exact h.post _ _ w _
  rintro (_ | _)
  · exact .done _
  dsimp only
  split
  · exact .done _
  refine (does_exec1 (h.idle _ _ _) fun w => h.store _ _ _ w).bind ?_
  rintro (_ | _) <;> exact .done _

theorem does_priceOrder (req : CreatePaymentRequest) : (priceOrder cfg userID uuid req).Does R := by
  unfold priceOrder
  split
  · exact .done _
  refine (does_validatePromoCode h _ _ _).bind ?_
  rintro (_ | app)
  · exact .done _
  · exact does_placeOrder h uuid req app

theorem does_createPayment (req : Option CreatePaymentRequest) :
    (createPayment cfg userID uuid req).Does R := by
  unfold createPayment
  split
  · exact .done _
  split
  · have htrial : (trialAvailableForUser cfg userID).Does R := by
      refine (does_exec1 (h.idle _ _ _) (h.idle _ _ _)).bind ?_
      rintro (_ | _) <;> exact .done _
    refine htrial.bind ?_
    rintro (_ | _)
    · exact .done _
    dsimp only
    split
    · exact .done _
    · exact does_priceOrder h _ _
  · exact does_priceOrder h _ _

end Steps

end PaymentCreation
