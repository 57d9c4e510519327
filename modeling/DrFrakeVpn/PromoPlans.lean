import DrFrakeVpn.PaymentCreation
import DrFrakeVpn.TextFields

/-! # The plans of a promo code

The text that an admin typed is brought into a normal form when the code is stored and whenever it
is used; a text that names no plan with a price stands for all plans. -/
namespace PromoPlans

open TextFields GoValues List
open BackendModels SubscriptionActivation PaymentCreation

/-- The body of the request; the description is kept beside what the model has of a code. -/
structure PromoCodeRequest where
  code : String
  discountPercent : ℤ
  maxUses : ℤ
  active : Option Bool
  applicablePlans : String
  oncePerUser : Option Bool
  expiresAt : Option ℤ
  deriving DecidableEq, Repr

/-- A code that is changed keeps its text if the request has none. -/
def codeOf (req : PromoCodeRequest) (existing : Option PromoCode) : String :=
  let code := normalizePromoCode req.code
  if code = "" then (existing.map PromoCode.code).getD code else code

def buildPromoCodeFromRequest (req : PromoCodeRequest) (existing : Option PromoCode) :
    Except String PromoCode :=
  let active := req.active.getD ((existing.map PromoCode.active).getD true)
  let oncePerUser := req.oncePerUser.getD ((existing.map PromoCode.oncePerUser).getD true)
  let code := codeOf req existing
  if !matchesPromoCodePattern code then
    .error "Код должен содержать 3-32 символа: A-Z, 0-9, _ или -"
  else if req.discountPercent < 1 ∨ 100 < req.discountPercent then
    .error "Скидка должна быть от 1 до 100%"
  else if req.maxUses < 0 then .error "Лимит использований не может быть отрицательным"
  else .ok
    { id := (existing.map PromoCode.id).getD 0
      code := code
      discountPercent := req.discountPercent
      maxUses := req.maxUses
      usedCount := (existing.map PromoCode.usedCount).getD 0
      active := active
      applicablePlans := normalizeApplicablePlans req.applicablePlans
      oncePerUser := oncePerUser
      expiresAt := req.expiresAt }

variable {promo : PromoCode}

theorem buildPromoCodeFromRequest_ok {req existing}
    (h : buildPromoCodeFromRequest req existing = .ok promo) :
    promo.applicablePlans = normalizeApplicablePlans req.applicablePlans ∧
      promo.active = req.active.getD ((existing.map PromoCode.active).getD true) ∧
      promo.oncePerUser = req.oncePerUser.getD ((existing.map PromoCode.oncePerUser).getD true) ∧
      promo.id = (existing.map PromoCode.id).getD 0 := by
  have hfail : ∀ message, (.error message : Except String PromoCode) ≠ .ok promo := fun _ => nofun
  unfold buildPromoCodeFromRequest at h
  dsimp only at h
  split at h
  · exact absurd h (hfail _)
  split at h
  · exact absurd h (hfail _)
  split at h
  · exact absurd h (hfail _)
  obtain rfl := Except.ok.inj h
  dsimp only
  exact ⟨rfl, rfl, rfl, rfl⟩

/-- The items between the commas, in lower case and without spaces around them. -/
def itemsOf (value : String) : List String :=
  (split value ',').map fun item => toLower (trimSpace item)

def isPriced (name : String) : Bool := ((PlanType.ofName? name).bind planPrices).isSome

/-- The names that have a price, sorted. -/
def pricedNames : List String := ["basic", "basic_3m", "trial", "vip", "vip_3m"]

theorem isPriced_iff : isPriced name ↔ name ∈ pricedNames := by
  constructor
  · intro h
    obtain ⟨amount, hamount⟩ := Option.isSome_iff_exists.mp h
    obtain ⟨plan, hplan, hprice⟩ := Option.bind_eq_some_iff.mp hamount
    have hname : plan.name = name := by simpa using find?_some hplan
    subst hname
    cases plan with
    | free => cases hprice
    | _ => decide
  · intro h
    simp only [pricedNames, mem_cons, not_mem_nil, or_false] at h
    rcases h with rfl | rfl | rfl | rfl | rfl <;> decide

variable (value : String)

/-- Neither lower case nor the spaces around the text change the items. -/
theorem fields_normal :
    fields (· == ',') isSpace (toLower (trimSpace value)).toList =
      (fields (· == ',') isSpace value.toList).map (map lowerRune) := by
  have hcomma : ∀ c, (lowerRune c == ',') = (c == ',') := fun c =>
    Bool.eq_iff_iff.mpr (by simp [lowerRune_eq_iff (c := ',') (by decide)])
  have htext : (toLower (trimSpace value)).toList = (strip isSpace value.toList).map lowerRune := by
    unfold toLower trimSpace
    rw [String.toList_ofList, String.toList_ofList]
    rfl
  rw [htext, fields_map hcomma isSpace_lowerRune, fields_strip]

variable {name : String}

theorem mem_items (hname : name ≠ "") (text : String) {g} (hg : g [] = []) :
    name ∈ (split text ',').map (fun item =>
        String.ofList (g (strip isSpace item.toList))) ↔
      name.toList ∈ (fields (· == ',') isSpace text.toList).map g := by
  have hlist : name.toList ≠ [] := by simpa using hname
  unfold fields split
  rw [map_map, mem_map, mem_map]
  constructor
  · rintro ⟨item, hitem, rfl⟩
    refine ⟨strip isSpace item, ?_, by simp⟩
    have hne : strip isSpace item ≠ [] := fun hnil => hlist (by simp [hnil, hg])
    simpa [hne] using ⟨item, hitem, rfl⟩
  · rintro ⟨field, hfield, heq⟩
    obtain ⟨item, hitem, rfl⟩ := mem_map.mp (mem_filter.mp hfield).1
    exact ⟨item, hitem, by simp [heq]⟩

/-- What the normal form is made of are the items of the text. -/
theorem mem_itemsOf (hname : name ≠ "") (value : String) :
    name ∈ (split (toLower (trimSpace value)) ',').map trimSpace ↔ name ∈ itemsOf value := by
  have htrim := mem_items hname (toLower (trimSpace value)) (g := id) rfl
  have hlower := mem_items hname value (g := map lowerRune) rfl
  rw [map_id, fields_normal, ← hlower] at htrim
  have hitem : ∀ item, String.ofList ((strip isSpace item.toList).map lowerRune) =
      toLower (trimSpace item) := fun item => by
    unfold toLower trimSpace
    rw [String.toList_ofList]
    rfl
  simp only [hitem] at htrim
  exact htrim

theorem mem_knownPlans :
    name ∈ knownPlans items seen ↔
      name ∈ items.map trimSpace ∧ name ∉ seen ∧ name ∈ pricedNames := by
  have hblank : ¬ "" ∈ pricedNames := by decide
  induction items generalizing seen with
  | nil => simp [knownPlans]
  | cons item items ih =>
    have hunpriced : ((PlanType.ofName? (trimSpace item)).bind planPrices).isNone ↔
        trimSpace item ∉ pricedNames := by
      rw [← isPriced_iff, isPriced]
      simp
    unfold knownPlans
    dsimp only
    split
    · next hskip =>
      grind
    · next htake =>
      grind

theorem knownPlans_nodup (items seen : List String) : (knownPlans items seen).Nodup := by
  induction items generalizing seen with
  | nil => exact .nil
  | cons item items ih =>
    unfold knownPlans
    dsimp only
    split
    · exact ih seen
    · refine nodup_cons.mpr ⟨?_, ih _⟩
      rw [mem_knownPlans]
      simp

/-- The text for a choice of plans. -/
def planText (plans : List String) : String :=
  if plans = [] then "all" else String.intercalate "," plans

def plansOf (value : String) : List String := pricedNames.filter fun name => name ∈ itemsOf value

theorem name_ne_blank (h : name ∈ pricedNames) : name ≠ "" := by
  rintro rfl
  revert h
  decide

theorem sorted_knownPlans :
    (knownPlans (split (toLower (trimSpace value)) ',') []).insertionSort (fun a b => a ≤ b) =
      plansOf value := by
  refine eq_of_sorted
    ((perm_insertionSort _ _).nodup_iff.mpr (knownPlans_nodup _ _))
    (List.Nodup.filter _ (by decide)) (pairwise_insertionSort _ _)
    (List.Pairwise.filter _ (by decide)) ?_
  intro name
  rw [(perm_insertionSort _ _).mem_iff, mem_knownPlans, plansOf, mem_filter]
  constructor
  · rintro ⟨hitem, _, hpriced⟩
    exact ⟨hpriced, by simpa using (mem_itemsOf (name_ne_blank hpriced) value).mp hitem⟩
  · rintro ⟨hpriced, hitem⟩
    exact ⟨(mem_itemsOf (name_ne_blank hpriced) value).mpr (by simpa using hitem), by simp, hpriced⟩

/-- The normal form depends on the set of items alone. -/
theorem normalizeApplicablePlans_eq :
    normalizeApplicablePlans value = planText (plansOf value) := by
  have hsorted := sorted_knownPlans value
  unfold normalizeApplicablePlans planText
  dsimp only
  split
  · next hall =>
    have hnone : plansOf value = [] := by
      rw [← hsorted]
      rcases hall with hall | hall <;> rw [hall] <;> decide
    rw [hnone, if_pos rfl]
  · have hnil := (perm_insertionSort (fun a b : String => a ≤ b)
      (knownPlans (split (toLower (trimSpace value)) ',') [])).length_eq
    rw [hsorted] at hnil ⊢
    have hempty : knownPlans (split (toLower (trimSpace value)) ',') [] = [] ↔
        plansOf value = [] := by
      rw [← length_eq_zero_iff, ← length_eq_zero_iff, hnil]
    simp only [hempty]

theorem plansOf_planText : ∀ plans ∈ pricedNames.sublists, plansOf (planText plans) = plans := by
  decide +kernel

/-- The plan is among the items of the text. -/
def Names (value : String) (plan : PlanType) : Prop := plan.name ∈ itemsOf value

instance (value : String) (plan : PlanType) : Decidable (Names value plan) :=
  inferInstanceAs (Decidable (plan.name ∈ itemsOf value))

theorem plansOf_sublist : plansOf value ∈ pricedNames.sublists :=
  mem_sublists.mpr filter_sublist

theorem normalizeApplicablePlans_idem :
    normalizeApplicablePlans (normalizeApplicablePlans value) = normalizeApplicablePlans value := by
  rw [normalizeApplicablePlans_eq value, normalizeApplicablePlans_eq,
    plansOf_planText _ (plansOf_sublist value)]

theorem appliesTo_planText : ∀ plans ∈ pricedNames.sublists, plans ≠ [] →
    planText plans ≠ "all" ∧ (split (planText plans) ',').map trimSpace = plans := by
  decide +kernel

theorem promoAppliesToPlan_iff {value} (h : promo.applicablePlans = normalizeApplicablePlans value)
    (plan : PlanType) :
    promoAppliesToPlan promo plan ↔ plansOf value = [] ∨ plan.name ∈ plansOf value := by
  unfold promoAppliesToPlan
  rw [h, normalizeApplicablePlans_idem, normalizeApplicablePlans_eq]
  by_cases hnone : plansOf value = []
  · simp [hnone, planText]
  · obtain ⟨hall, hitems⟩ := appliesTo_planText _ (plansOf_sublist value) hnone
    rw [if_neg hall]
    nth_rewrite 3 [← hitems]
    simp [hnone]

theorem plan_restriction_kept :
    (∀ (req : PromoCodeRequest) (existing : Option PromoCode) (promo : PromoCode) (plan : PlanType),
      buildPromoCodeFromRequest req existing = .ok promo → promoAppliesToPlan promo plan = true →
        trimSpace req.applicablePlans = "" ∨ toLower (trimSpace req.applicablePlans) = "all" ∨
          Names req.applicablePlans plan ∨
          ∀ other, (planPrices other).isSome → ¬ Names req.applicablePlans other) ∧
      (∀ value, normalizeApplicablePlans (normalizeApplicablePlans value) =
        normalizeApplicablePlans value) ∧
      ∀ value value', (∀ item, item ∈ itemsOf value ↔ item ∈ itemsOf value') →
        normalizeApplicablePlans value = normalizeApplicablePlans value' := by
  refine ⟨?_, normalizeApplicablePlans_idem, ?_⟩
  · intro req existing promo plan hbuilt happlies
    have hplans := (buildPromoCodeFromRequest_ok hbuilt).1
    refine .inr (.inr ?_)
    rcases (promoAppliesToPlan_iff hplans plan).mp happlies with hnone | hmem
    · refine .inr fun other hpriced hnames => ?_
      have hname : other.name ∈ pricedNames := by
        cases other with
        | free => cases hpriced
        | _ => decide
      have hmem : other.name ∈ plansOf req.applicablePlans :=
        mem_filter.mpr ⟨hname, decide_eq_true hnames⟩
      rw [hnone] at hmem
      cases hmem
    · exact .inl (of_decide_eq_true (mem_filter.mp hmem).2)
  · intro value value' hitems
    have hplans : plansOf value = plansOf value' := by
      unfold plansOf
      simp only [hitems]
    rw [normalizeApplicablePlans_eq, normalizeApplicablePlans_eq, hplans]

/-- A code for VIP plans, typed carelessly. -/
def vipOnly : PromoCodeRequest := ⟨" vip-10 ", 10, 0, none, " VIP, gold,vip ", none, none⟩

theorem plan_restriction_kept_vip :
    ∃ promo, buildPromoCodeFromRequest vipOnly none = .ok promo ∧
      promoAppliesToPlan promo .vip = true ∧ promoAppliesToPlan promo .basic = false ∧
      normalizeApplicablePlans " VIP, gold,vip " = normalizeApplicablePlans "gold,vip" ∧
      (trimSpace vipOnly.applicablePlans = "" ∨
        toLower (trimSpace vipOnly.applicablePlans) = "all" ∨
        Names vipOnly.applicablePlans .vip ∨
        ∀ other, (planPrices other).isSome → ¬ Names vipOnly.applicablePlans other) := by
  obtain ⟨hkept, _, hsame⟩ := plan_restriction_kept
  have hbuilt : buildPromoCodeFromRequest vipOnly none =
      .ok ⟨0, "VIP-10", 10, 0, 0, true, "vip", true, none⟩ := by decide +kernel
  have hitems : itemsOf " VIP, gold,vip " = ["vip", "gold", "vip"] ∧
      itemsOf "gold,vip" = ["gold", "vip"] := by decide +kernel
  refine ⟨_, hbuilt, by decide +kernel, by decide +kernel, hsame _ _ fun item => ?_,
    hkept vipOnly none _ .vip hbuilt (by decide +kernel)⟩
  rw [hitems.1, hitems.2]
  simp only [mem_cons]
  tauto

/-- A text without any plan that has a price is no restriction. -/
theorem unknown_plan_is_no_restriction :
    ∃ promo, buildPromoCodeFromRequest ⟨"ABC", 10, 0, none, "gold", none, none⟩ none = .ok promo ∧
      promoAppliesToPlan promo .vip = true ∧ trimSpace "gold" ≠ "" ∧
      toLower (trimSpace "gold") ≠ "all" ∧ ¬ Names "gold" .vip := by
  have hbuilt : buildPromoCodeFromRequest ⟨"ABC", 10, 0, none, "gold", none, none⟩ none =
      .ok ⟨0, "ABC", 10, 0, 0, true, "all", true, none⟩ := by decide +kernel
  exact ⟨_, hbuilt, by decide +kernel⟩

end PromoPlans
