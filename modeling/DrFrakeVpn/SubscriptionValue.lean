import DrFrakeVpn.SubscriptionActivation

/-! # The value of a subscription

The conversion between plans goes through 64-bit durations and `float64` quotients, so the bounds
hold as long as the remaining and the converted time fit in a duration and the rounding does not
carry the converted time over a whole hour. -/
namespace SubscriptionValue

open GoTime BinaryRounding RecordTables FaultyTransactions BackendModels BackendWorld
open SubscriptionActivation List

def pricePerDay (plan : PlanType) : ℚ := (priceOf plan).amount / (priceOf plan).durationDays

def hourPrice (plan : PlanType) : ℚ := pricePerDay plan / 24

def worth (t : ℤ) (plan : PlanType) (expiresAt : ℤ) : ℚ :=
  ((max 0 (expiresAt - t) : ℤ) : ℚ) / day * pricePerDay plan

def valueAt (t : ℤ) (sub : Subscription) : ℚ := worth t sub.plan sub.expiresAt

def valueOf (userID : ℕ) (t : ℤ) (db : Db) : ℚ :=
  match db.subscriptionOf userID with
  | some sub => valueAt t sub
  | none => 0

section Prices

variable {plan : PlanType}

/-- Every plan but the free one has a price and a period of at most 90 days. -/
structure Priced (plan : PlanType) : Prop where
  listed : planPrices plan = some (priceOf plan)
  amount : 0 < (priceOf plan).amount
  duration : 0 < (priceOf plan).durationDays
  duration_le : (priceOf plan).durationDays ≤ 90

theorem priced_of_ne_free (h : plan ≠ .free) : Priced plan := by
  cases plan with
  | free => exact absurd rfl h
  | trial => exact ⟨rfl, by norm_num [priceOf, planPrices], by decide, by decide⟩
  | basic => exact ⟨rfl, by norm_num [priceOf, planPrices], by decide, by decide⟩
  | basic3M => exact ⟨rfl, by norm_num [priceOf, planPrices], by decide, by decide⟩
  | vip => exact ⟨rfl, by norm_num [priceOf, planPrices], by decide, by decide⟩
  | vip3M => exact ⟨rfl, by norm_num [priceOf, planPrices], by decide, by decide⟩

theorem pricePerDay_le : pricePerDay plan ≤ 100 := by
  cases plan <;> norm_num [pricePerDay, priceOf, planPrices]

theorem one_le_pricePerDay (h : plan ≠ .free) : 1 ≤ pricePerDay plan := by
  cases plan with
  | free => exact absurd rfl h
  | _ => norm_num [pricePerDay, priceOf, planPrices]

theorem pricePerDay_pos (h : plan ≠ .free) : 0 < pricePerDay plan := by
  have hp := priced_of_ne_free h
  exact div_pos hp.amount (by exact_mod_cast hp.duration)

theorem hourPrice_pos (h : plan ≠ .free) : 0 < hourPrice plan :=
  div_pos (pricePerDay_pos h) (by norm_num)

theorem pricePerDay_nonneg : 0 ≤ pricePerDay plan := by
  by_cases h : plan = .free
  · subst h
    norm_num [pricePerDay, priceOf, planPrices]
  · exact (pricePerDay_pos h).le

theorem durationDays_mul_pricePerDay (h : plan ≠ .free) :
    ((priceOf plan).durationDays : ℚ) * pricePerDay plan = (priceOf plan).amount := by
  have hd : ((priceOf plan).durationDays : ℚ) ≠ 0 := by
    exact_mod_cast (priced_of_ne_free h).duration.ne'
  exact mul_div_cancel₀ _ hd

end Prices

section Worth

variable {t e : ℤ} {plan : PlanType}

theorem worth_of_le (h : t ≤ e) : worth t plan e = ((e - t : ℤ) : ℚ) / day * pricePerDay plan := by
  rw [worth, max_eq_right (by omega)]

theorem worth_of_ge (h : e ≤ t) : worth t plan e = 0 := by
  rw [worth, max_eq_left (by omega)]
  simp

theorem worth_mono (h : e ≤ e') : worth t plan e ≤ worth t plan e' := by
  have hmax : ((max 0 (e - t) : ℤ) : ℚ) ≤ ((max 0 (e' - t) : ℤ) : ℚ) := by
    exact_mod_cast max_le_max le_rfl (by omega)
  exact mul_le_mul_of_nonneg_right (div_le_div_of_nonneg_right hmax day_pos.le) pricePerDay_nonneg

theorem worth_add_period (hp : plan ≠ .free) (h : t ≤ e) :
    worth t plan (e + (priceOf plan).durationDays * day) =
      worth t plan e + (priceOf plan).amount := by
  have hd := (priced_of_ne_free hp).duration
  have hpos : (0 : ℤ) ≤ (priceOf plan).durationDays * day :=
    mul_nonneg hd.le (by decide)
  rw [worth_of_le (by omega), worth_of_le h, ← durationDays_mul_pricePerDay hp]
  push_cast
  have hday := day_pos.ne'
  field_simp
  ring

theorem worth_hours (h : 0 ≤ n) : worth t plan (t + n * hour) = n * hourPrice plan := by
  have hpos : (0 : ℤ) ≤ n * hour := mul_nonneg h (by decide)
  rw [worth_of_le (by omega), hourPrice]
  norm_num [day, hour]
  ring

end Worth

section NewExpiry

variable {now : ℤ} {plan : PlanType} {sub : Subscription}

theorem newExpiry_period (h : plan = .trial ∨ sub.expiresAt ≤ now ∨ sub.plan = .free) :
    newExpiry now plan sub = now + (priceOf plan).durationDays * day := by
  have hcond : ¬ (plan ≠ .trial ∧ now < sub.expiresAt ∧ sub.plan ≠ .free) := by
    rintro ⟨h₁, h₂, h₃⟩
    rcases h with h | h | h
    · exact h₁ h
    · omega
    · exact h₃ h
  simp [newExpiry, if_neg hcond, addDate_days]

theorem newExpiry_same (ht : plan ≠ .trial) (he : now < sub.expiresAt) (hf : sub.plan ≠ .free)
    (hs : plan = sub.plan) :
    newExpiry now plan sub = sub.expiresAt + (priceOf plan).durationDays * day := by
  have hcond : plan ≠ .trial ∧ now < sub.expiresAt ∧ sub.plan ≠ .free := ⟨ht, he, hf⟩
  simp [newExpiry, if_pos hcond, if_pos hs, addDate_days]

def wholeHours (now : ℤ) (plan : PlanType) (sub : Subscription) : ℤ :=
  trunc (convertedHours now sub.expiresAt (priceOf sub.plan) (priceOf plan))

theorem newExpiry_other (ht : plan ≠ .trial) (he : now < sub.expiresAt) (hf : sub.plan ≠ .free)
    (hs : plan ≠ sub.plan) : newExpiry now plan sub =
      now + Int.bmod (wholeHours now plan sub * hour) (2 ^ 64) +
        (priceOf plan).durationDays * day := by
  have hcond : plan ≠ .trial ∧ now < sub.expiresAt ∧ sub.plan ≠ .free := ⟨ht, he, hf⟩
  have hold := priced_of_ne_free hf
  simp only [newExpiry, if_pos hcond, if_neg hs, hold.listed, if_neg hold.duration.ne',
    addDate_days]
  rfl

/-- Remaining and converted time are durations. -/
structure Fits (now : ℤ) (plan : PlanType) (sub : Subscription) : Prop where
  remaining : sub.expiresAt - now ≤ maxDuration
  converted : ((sub.expiresAt - now : ℤ) : ℚ) * pricePerDay sub.plan ≤
    maxDuration * pricePerDay plan

instance (now : ℤ) (plan : PlanType) (sub : Subscription) : Decidable (Fits now plan sub) :=
  decidable_of_iff (_ ∧ _) ⟨fun h => ⟨h.1, h.2⟩, fun h => ⟨h.remaining, h.converted⟩⟩

theorem sub_nonneg (he : now < sub.expiresAt) : 0 ≤ GoTime.sub sub.expiresAt now := by
  have hmax : 0 < maxDuration := by decide
  exact le_max_of_le_right (le_min hmax.le (by omega))

/-- The converted hours without rounding. -/
def exactHours (d : ℤ) (old new : PlanType) : ℚ := d / hour * (pricePerDay old / pricePerDay new)

theorem exactHours_nonneg {d : ℤ} (h : 0 ≤ d) (old new : PlanType) : 0 ≤ exactHours d old new := by
  have hd : (0 : ℚ) ≤ d := by exact_mod_cast h
  have hhour : (0 : ℚ) < hour := by norm_num [hour]
  exact mul_nonneg (div_nonneg hd hhour.le) (div_nonneg pricePerDay_nonneg pricePerDay_nonneg)

/-- A bound for the relative error of the six roundings of a conversion. -/
def conversionError : ℚ := 12 * rounding

variable (hp : plan ≠ .free)
include hp

theorem exactHours_mul_hourPrice (d : ℤ) (old : PlanType) :
    exactHours d old plan * hourPrice plan = (d : ℚ) / day * pricePerDay old := by
  have hne : pricePerDay plan ≠ 0 := (pricePerDay_pos hp).ne'
  rw [exactHours, hourPrice, day]
  push_cast
  field_simp

theorem convertedHours_near (he : now < sub.expiresAt) :
    Near conversionError (exactHours (GoTime.sub sub.expiresAt now) sub.plan plan)
      (convertedHours now sub.expiresAt (priceOf sub.plan) (priceOf plan)) := by
  have hd := sub_nonneg he
  have hnew := pricePerDay_pos hp
  have hprice : 0 ≤ pricePerDay sub.plan := pricePerDay_nonneg
  have hratio := div_nonneg hprice hnew.le
  have hinv : Near (2 * rounding) (pricePerDay plan)⁻¹ (float64 (pricePerDay plan))⁻¹ := by
    apply (float64_near hnew.le).inv hnew <;> norm_num [rounding, unit]
  have hquot := (float64_near hprice).mul hinv hprice (inv_nonneg.mpr hnew.le)
    (c := 4 * rounding) (by constructor <;> norm_num [rounding, unit])
  rw [← div_eq_mul_inv, ← div_eq_mul_inv] at hquot
  have hrounded := hquot.trans (float64_near (hquot.nonneg hratio (by norm_num [rounding, unit])))
    hratio (c := 6 * rounding) (by constructor <;> norm_num [rounding, unit])
  have hhours : (0 : ℚ) ≤ (GoTime.sub sub.expiresAt now : ℚ) / hour :=
    div_nonneg (by exact_mod_cast hd) (by norm_num [hour])
  have hprod := (hours_near hd).mul hrounded hhours hratio (c := 10 * rounding)
    (by constructor <;> norm_num [rounding, unit])
  have hx := exactHours_nonneg hd sub.plan plan
  exact hprod.trans (float64_near (hprod.nonneg hx (by norm_num [rounding, unit]))) hx
    (by constructor <;> norm_num [conversionError, rounding, unit])

theorem convertedHours_nonneg (he : now < sub.expiresAt) :
    0 ≤ convertedHours now sub.expiresAt (priceOf sub.plan) (priceOf plan) :=
  (convertedHours_near hp he).nonneg (exactHours_nonneg (sub_nonneg he) _ _)
    (by norm_num [conversionError, rounding, unit])

theorem wholeHours_mul_le (he : now < sub.expiresAt) :
    wholeHours now plan sub * hourPrice plan ≤ (1 + conversionError) * valueAt now sub := by
  have hcut : (GoTime.sub sub.expiresAt now : ℚ) ≤ ((sub.expiresAt - now : ℤ) : ℚ) := by
    have hmin : minDuration ≤ 0 := by decide
    exact_mod_cast max_le (by omega) (min_le_right _ _)
  have herror : (0 : ℚ) ≤ 1 + conversionError := by norm_num [conversionError, rounding, unit]
  calc (wholeHours now plan sub : ℚ) * hourPrice plan
      ≤ convertedHours now sub.expiresAt (priceOf sub.plan) (priceOf plan) * hourPrice plan :=
        mul_le_mul_of_nonneg_right (trunc_le (convertedHours_nonneg hp he))
          (hourPrice_pos hp).le
    _ ≤ (1 + conversionError) * exactHours (GoTime.sub sub.expiresAt now) sub.plan plan *
          hourPrice plan :=
        mul_le_mul_of_nonneg_right (convertedHours_near hp he).upper (hourPrice_pos hp).le
    _ = (1 + conversionError) *
          ((GoTime.sub sub.expiresAt now : ℚ) / day * pricePerDay sub.plan) := by
        rw [mul_assoc, exactHours_mul_hourPrice hp]
    _ ≤ (1 + conversionError) * valueAt now sub := by
        rw [valueAt, worth_of_le he.le]
        exact mul_le_mul_of_nonneg_left (mul_le_mul_of_nonneg_right
          (div_le_div_of_nonneg_right hcut day_pos.le) pricePerDay_nonneg) herror

theorem valueAt_eq (he : now < sub.expiresAt) :
    valueAt now sub = exactHours (sub.expiresAt - now) sub.plan plan * hourPrice plan := by
  rw [exactHours_mul_hourPrice hp, valueAt, worth_of_le he.le]

theorem lt_wholeHours_mul (he : now < sub.expiresAt) (hfit : sub.expiresAt - now ≤ maxDuration) :
    (1 - conversionError) * valueAt now sub <
      wholeHours now plan sub * hourPrice plan + hourPrice plan := by
  have hnear := (convertedHours_near hp he).lower
  rw [sub_of_fits he.le hfit] at hnear
  calc (1 - conversionError) * valueAt now sub
      = (1 - conversionError) * exactHours (sub.expiresAt - now) sub.plan plan *
          hourPrice plan := by rw [valueAt_eq hp he, mul_assoc]
    _ ≤ convertedHours now sub.expiresAt (priceOf sub.plan) (priceOf plan) * hourPrice plan :=
        mul_le_mul_of_nonneg_right hnear (hourPrice_pos hp).le
    _ < ((wholeHours now plan sub : ℚ) + 1) * hourPrice plan :=
        mul_lt_mul_of_pos_right (lt_trunc_add_one (convertedHours_nonneg hp he))
          (hourPrice_pos hp)
    _ = wholeHours now plan sub * hourPrice plan + hourPrice plan := by ring

/-- The longest duration is far enough from a whole hour for the error not to matter. -/
theorem wholeHours_fits (he : now < sub.expiresAt) (h : Fits now plan sub) :
    wholeHours now plan sub * hour ≤ maxDuration := by
  have hupper := wholeHours_mul_le hp he
  have herror : (0 : ℚ) ≤ 1 + conversionError := by norm_num [conversionError, rounding, unit]
  rw [valueAt, worth_of_le he.le, hourPrice, div_mul_eq_mul_div] at hupper
  have hscaled : (wholeHours now plan sub : ℚ) / 24 * pricePerDay plan ≤
      (1 + conversionError) * maxDuration / day * pricePerDay plan := by
    calc (wholeHours now plan sub : ℚ) / 24 * pricePerDay plan
        = wholeHours now plan sub * (pricePerDay plan / 24) := by ring
      _ ≤ (1 + conversionError) * (maxDuration * pricePerDay plan / day) := hupper.trans
          (mul_le_mul_of_nonneg_left (div_le_div_of_nonneg_right h.converted day_pos.le) herror)
      _ = (1 + conversionError) * maxDuration / day * pricePerDay plan := by ring
  have hle := le_of_mul_le_mul_right hscaled (pricePerDay_pos hp)
  have hwhole : wholeHours now plan sub < 2562048 := by
    have hlt : (wholeHours now plan sub : ℚ) < 2562048 := by
      norm_num [conversionError, rounding, unit, maxDuration, day, hour] at hle ⊢
      linarith
    exact_mod_cast hlt
  unfold maxDuration hour
  omega

theorem period_pos : 0 < (priceOf plan).durationDays * day :=
  mul_pos (priced_of_ne_free hp).duration (by decide)

theorem newExpiry_fits (ht : plan ≠ .trial) (he : now < sub.expiresAt) (hf : sub.plan ≠ .free)
    (hs : plan ≠ sub.plan) (hfit : wholeHours now plan sub * hour ≤ maxDuration) :
    newExpiry now plan sub =
      now + wholeHours now plan sub * hour + (priceOf plan).durationDays * day := by
  have hbmod : Int.bmod (wholeHours now plan sub * hour) (2 ^ 64) =
      wholeHours now plan sub * hour :=
    ofHours_of_fits (convertedHours_nonneg hp he) hfit
  rw [newExpiry_other ht he hf hs, hbmod]

theorem lt_newExpiry
    (hfit : now < sub.expiresAt → sub.plan ≠ .free → plan ≠ sub.plan → Fits now plan sub) :
    now < newExpiry now plan sub := by
  have hperiod := period_pos hp
  by_cases hperiodOnly : plan = .trial ∨ sub.expiresAt ≤ now ∨ sub.plan = .free
  · rw [newExpiry_period hperiodOnly]
    omega
  · simp only [not_or, not_le] at hperiodOnly
    obtain ⟨ht, he, hf⟩ := hperiodOnly
    by_cases hs : plan = sub.plan
    · rw [newExpiry_same ht he hf hs]
      omega
    · have hn : 0 ≤ wholeHours now plan sub * hour :=
        mul_nonneg (trunc_nonneg (convertedHours_nonneg hp he)) (by decide)
      rw [newExpiry_fits hp ht he hf hs (wholeHours_fits hp he (hfit he hf hs))]
      omega

theorem newExpiry_eq_iff (hs : plan = sub.plan) :
    newExpiry now plan sub = sub.expiresAt ↔
      plan = .trial ∧ sub.expiresAt = now + 3 * day := by
  have hperiod := period_pos hp
  by_cases ht : plan = .trial
  · rw [newExpiry_period (.inl ht)]
    subst ht
    have hdays : (priceOf .trial).durationDays = 3 := rfl
    rw [hdays]
    simp [eq_comm]
  · simp only [ht, false_and, iff_false]
    by_cases he : now < sub.expiresAt
    · rw [newExpiry_same ht he (hs ▸ hp) hs]
      omega
    · rw [newExpiry_period (.inr (.inl (not_lt.mp he)))]
      omega

theorem worth_newExpiry_other (ht : plan ≠ .trial) (he : now < sub.expiresAt)
    (hf : sub.plan ≠ .free) (hs : plan ≠ sub.plan)
    (hfit : wholeHours now plan sub * hour ≤ maxDuration) :
    worth now plan (newExpiry now plan sub) =
      wholeHours now plan sub * hourPrice plan + (priceOf plan).amount := by
  have hn : 0 ≤ wholeHours now plan sub := trunc_nonneg (convertedHours_nonneg hp he)
  have hpos : 0 ≤ wholeHours now plan sub * hour := mul_nonneg hn (by decide)
  rw [newExpiry_fits hp ht he hf hs hfit, worth_add_period hp (by omega), worth_hours hn]

theorem wholeHours_le (he : now < sub.expiresAt) : wholeHours now plan sub ≤ 10 ^ 9 := by
  have hd : (GoTime.sub sub.expiresAt now : ℚ) / hour ≤ maxDuration / hour := by
    have hcut : GoTime.sub sub.expiresAt now ≤ maxDuration := max_le (by decide) (min_le_left _ _)
    exact div_le_div_of_nonneg_right (by exact_mod_cast hcut) (by norm_num [hour])
  have hratio : pricePerDay sub.plan / pricePerDay plan ≤ 100 :=
    (div_le_self pricePerDay_nonneg (one_le_pricePerDay hp)).trans pricePerDay_le
  have hexact : exactHours (GoTime.sub sub.expiresAt now) sub.plan plan ≤
      maxDuration / hour * 100 :=
    mul_le_mul hd hratio (div_nonneg pricePerDay_nonneg pricePerDay_nonneg)
      (by norm_num [maxDuration, hour])
  have hupper := (trunc_le (convertedHours_nonneg hp he)).trans (convertedHours_near hp he).upper
  have hle : (wholeHours now plan sub : ℚ) ≤ (10 ^ 9 : ℤ) := by
    norm_num [conversionError, rounding, unit, maxDuration, hour, wholeHours] at hexact hupper ⊢
    linarith
  exact_mod_cast hle

/-- An overflow costs more than an hour of the new plan, whatever period is added. -/
theorem worth_overflow_le (ht : plan ≠ .trial) (he : now < sub.expiresAt) (hf : sub.plan ≠ .free)
    (hs : plan ≠ sub.plan) (hover : maxDuration < wholeHours now plan sub * hour) :
    worth now plan (newExpiry now plan sub) ≤ valueAt now sub - hourPrice plan := by
  have hdays := (priced_of_ne_free hp).duration_le
  have hwrap : Int.bmod (wholeHours now plan sub * hour) (2 ^ 64) ≤
      wholeHours now plan sub * hour - 2 ^ 64 := ofHours_of_overflow hover
  have hmany : 2562048 ≤ wholeHours now plan sub := by
    unfold maxDuration hour at hover
    omega
  have hbound := wholeHours_le hp he
  -- the wrapped time and the new period are short of the whole hours by five million
  have hshort : newExpiry now plan sub ≤
      now + max 0 (wholeHours now plan sub - 5000000) * hour := by
    rw [newExpiry_other ht he hf hs]
    simp only [day, hour] at hwrap ⊢
    omega
  have hworth : worth now plan (newExpiry now plan sub) ≤ _ := worth_mono hshort
  rw [worth_hours (le_max_left ..)] at hworth
  have hhour := hourPrice_pos hp
  have hvalue := wholeHours_mul_le hp he
  have hgap : (1 + conversionError) *
      (((max 0 (wholeHours now plan sub - 5000000) : ℤ) : ℚ) + 1) ≤ wholeHours now plan sub := by
    have hmany' : (2562048 : ℚ) ≤ wholeHours now plan sub := by exact_mod_cast hmany
    have hbound' : (wholeHours now plan sub : ℚ) ≤ 10 ^ 9 := by exact_mod_cast hbound
    push_cast
    rcases max_choice (0 : ℚ) (wholeHours now plan sub - 5000000) with hmax | hmax <;>
      rw [hmax] <;> norm_num [conversionError, rounding, unit] at hbound' ⊢ <;> linarith
  have hpos : (0 : ℚ) < 1 + conversionError := by norm_num [conversionError, rounding, unit]
  have hscaled := (mul_le_mul_of_nonneg_right hgap hhour.le).trans hvalue
  rw [mul_assoc] at hscaled
  have hle := le_of_mul_le_mul_left hscaled hpos
  linarith

end NewExpiry

structure Purchase where
  time : ℤ
  payment : Payment
  method : String

variable (cfg : Setup)

def Purchase.apply (a : Purchase) (w : World) : World :=
  (exec (activateSubscriptionFromPayment cfg a.payment a.method) { w with now := a.time }).2

def Purchase.amount (a : Purchase) : ℚ := (priceOf a.payment.plan).amount

/-- The payer's value grows by the amount of the plan, short of less than an hour. -/
def Conserves (a : Purchase) (w : World) : Prop :=
  let before := valueOf a.payment.userID a.time w.db
  let after := valueOf a.payment.userID a.time (a.apply cfg w).db
  before + a.amount - hourPrice a.payment.plan < after ∧ after ≤ before + a.amount

def Fitting (a : Purchase) (w : World) : Prop :=
  ∀ sub, w.db.subscriptionOf a.payment.userID = some sub → a.time < sub.expiresAt →
    sub.plan ≠ .free → a.payment.plan ≠ sub.plan → Fits a.time a.payment.plan sub

instance (a : Purchase) (w : World) : Decidable (Fitting a w) :=
  inferInstanceAs (Decidable (∀ sub ∈ w.db.subscriptionOf a.payment.userID, _))

def Purchase.exactHours (a : Purchase) (sub : Subscription) : ℚ :=
  SubscriptionValue.exactHours (sub.expiresAt - a.time) sub.plan a.payment.plan

/-- The converted time is no closer to a whole number of hours than its roundings can reach. -/
def Clear (a : Purchase) (w : World) : Prop :=
  ∀ sub, w.db.subscriptionOf a.payment.userID = some sub →
    ⌊(1 - conversionError) * a.exactHours sub⌋ = ⌊(1 + conversionError) * a.exactHours sub⌋

instance (a : Purchase) (w : World) : Decidable (Clear a w) :=
  inferInstanceAs (Decidable (∀ sub ∈ w.db.subscriptionOf a.payment.userID, _))

/-- The hours that are added are those of the exact conversion, and a duration holds them. -/
def ConvertsExactly (a : Purchase) (w : World) : Prop :=
  ∀ sub, w.db.subscriptionOf a.payment.userID = some sub → a.time < sub.expiresAt →
    sub.plan ≠ .free → a.payment.plan ≠ sub.plan →
      wholeHours a.time a.payment.plan sub = ⌊a.exactHours sub⌋ ∧
        ⌊a.exactHours sub⌋ * hour ≤ maxDuration

variable {cfg}

theorem apply_subscriptionOf (h : cfg.Reliable) (a : Purchase) (w : World) (v : ℕ) :
    (a.apply cfg w).db.subscriptionOf v =
      if v = a.payment.userID then
        some (grantedRow a.time a.payment (keptMethod cfg a.method) w.db)
      else w.db.subscriptionOf v := by
  rw [Purchase.apply, exec_activate h]
  exact activatedDb_subscriptionOf _ _ _ _ v

theorem valueOf_apply (h : cfg.Reliable) (a : Purchase) (w : World) (t : ℤ) :
    valueOf a.payment.userID t (a.apply cfg w).db = worth t a.payment.plan
      (match w.db.subscriptionOf a.payment.userID with
        | some sub => newExpiry a.time a.payment.plan sub
        | none => a.time + (priceOf a.payment.plan).durationDays * day) := by
  rw [valueOf, apply_subscriptionOf h, if_pos rfl]
  cases hs : w.db.subscriptionOf a.payment.userID with
  | some sub => simp only [grantedRow, hs, valueAt, activatedRow]
  | none => simp [grantedRow, hs, valueAt, freshRow, addDate_days]

variable {t : ℤ} {plan : PlanType}

theorem worth_period (hp : plan ≠ .free) :
    worth t plan (t + (priceOf plan).durationDays * day) = (priceOf plan).amount := by
  rw [worth_add_period hp le_rfl, worth_of_ge le_rfl, zero_add]

variable {w : World} {a : Purchase}

theorem wholeHours_of_clear (hfit : Fitting a w) (hclear : Clear a w) : ConvertsExactly a w := by
  intro sub hs he hf hsame
  have hp := a.payment.plan_priced
  have hfits := hfit sub hs he hf hsame
  have hnear := convertedHours_near hp he
  rw [sub_of_fits he.le hfits.remaining] at hnear
  have hx : 0 ≤ a.exactHours sub := exactHours_nonneg (by omega) _ _
  have herror : 0 ≤ conversionError := by norm_num [conversionError, rounding, unit]
  have hfloor := hclear sub hs
  have hlow := Int.floor_le_floor hnear.lower
  have hhigh := Int.floor_le_floor hnear.upper
  have hlow' : ⌊(1 - conversionError) * a.exactHours sub⌋ ≤ ⌊a.exactHours sub⌋ :=
    Int.floor_le_floor (mul_le_of_le_one_left hx (by linarith))
  have hhigh' : ⌊a.exactHours sub⌋ ≤ ⌊(1 + conversionError) * a.exactHours sub⌋ :=
    Int.floor_le_floor (le_mul_of_one_le_left hx (by linarith))
  have hwhole : wholeHours a.time a.payment.plan sub = ⌊a.exactHours sub⌋ := by
    rw [wholeHours, trunc_of_nonneg (convertedHours_nonneg hp he)]
    unfold Purchase.exactHours at *
    omega
  exact ⟨hwhole, hwhole ▸ wholeHours_fits hp he hfits⟩

theorem conserves_other_iff {sub : Subscription} (hp : plan ≠ .free) (ht : plan ≠ .trial)
    (he : t < sub.expiresAt) (hf : sub.plan ≠ .free) (hs : plan ≠ sub.plan) :
    (valueAt t sub + (priceOf plan).amount - hourPrice plan < worth t plan (newExpiry t plan sub) ∧
      worth t plan (newExpiry t plan sub) ≤ valueAt t sub + (priceOf plan).amount) ↔
    wholeHours t plan sub = ⌊exactHours (sub.expiresAt - t) sub.plan plan⌋ ∧
      ⌊exactHours (sub.expiresAt - t) sub.plan plan⌋ * hour ≤ maxDuration := by
  have hhour := hourPrice_pos hp
  have hamount := (priced_of_ne_free hp).amount
  by_cases hover : maxDuration < wholeHours t plan sub * hour
  · have hlost := worth_overflow_le hp ht he hf hs hover
    constructor
    · rintro ⟨hlow, -⟩
      linarith
    · rintro ⟨heq, hle⟩
      rw [heq] at hover
      omega
  · rw [worth_newExpiry_other hp ht he hf hs (by omega), valueAt_eq hp he, eq_comm,
      Int.floor_eq_iff]
    have hscale : ∀ {x y : ℚ}, x * hourPrice plan < y * hourPrice plan ↔ x < y :=
      mul_lt_mul_iff_left₀ hhour
    constructor
    · rintro ⟨hlow, hhigh⟩
      have hle := le_of_mul_le_mul_right (le_of_add_le_add_right hhigh) hhour
      have hlt : exactHours (sub.expiresAt - t) sub.plan plan < wholeHours t plan sub + 1 :=
        hscale.mp (by linarith)
      refine ⟨⟨hle, hlt⟩, ?_⟩
      rw [Int.floor_eq_iff.mpr ⟨hle, hlt⟩]
      omega
    · rintro ⟨⟨hle, hlt⟩, -⟩
      have hle' := mul_le_mul_of_nonneg_right hle hhour.le
      have hlt' := hscale.mpr hlt
      constructor <;> linarith

theorem purchase_conserves_iff (h : cfg.Reliable) (ht : a.payment.plan ≠ .trial) :
    Conserves cfg a w ↔ ConvertsExactly a w := by
  have hp := a.payment.plan_priced
  have hhour := hourPrice_pos hp
  unfold Conserves ConvertsExactly
  rw [valueOf_apply h, valueOf, Purchase.amount]
  cases hs : w.db.subscriptionOf a.payment.userID with
  | none =>
    simp only [worth_period hp]
    exact iff_of_true ⟨by linarith, by linarith⟩ nofun
  | some sub =>
    simp only [Option.some.injEq, forall_eq']
    by_cases hlapsed : sub.expiresAt ≤ a.time
    · rw [newExpiry_period (.inr (.inl hlapsed)), worth_period hp, valueAt, worth_of_ge hlapsed]
      exact iff_of_true ⟨by linarith, by linarith⟩ fun he => absurd he (by omega)
    have he : a.time < sub.expiresAt := by omega
    by_cases hf : sub.plan = .free
    · have hzero : valueAt a.time sub = 0 := by
        rw [valueAt, hf]
        norm_num [worth, pricePerDay, priceOf, planPrices]
      rw [newExpiry_period (.inr (.inr hf)), worth_period hp, hzero]
      exact iff_of_true ⟨by linarith, by linarith⟩ fun _ hne => absurd hf hne
    by_cases hsame : a.payment.plan = sub.plan
    · rw [newExpiry_same ht he hf hsame, worth_add_period hp he.le, valueAt, ← hsame]
      exact iff_of_true ⟨by linarith, by linarith⟩ fun _ _ hne => absurd rfl hne
    · simp only [he, hf, hsame, ne_eq, not_false_eq_true, forall_const]
      exact conserves_other_iff hp ht he hf hsame

variable (cfg) in
def Throughout (P : Purchase → World → Prop) : List Purchase → World → Prop
  | [], _ => True
  | a :: rest, w => P a w ∧ Throughout P rest (a.apply cfg w)

variable {purchases : List Purchase}

theorem Throughout.imp (h : Throughout cfg P purchases w)
    (hPQ : ∀ a ∈ purchases, ∀ w, P a w → Q a w) : Throughout cfg Q purchases w := by
  induction purchases generalizing w with
  | nil => trivial
  | cons a rest ih =>
    obtain ⟨ha, hrest⟩ := h
    exact ⟨hPQ a (mem_cons_self ..) w ha,
      ih hrest fun b hb => hPQ b (mem_cons_of_mem a hb)⟩

/-- Payments of one user for plans other than the trial, at increasing times. -/
structure Sequence (userID : ℕ) where
  purchases : List Purchase
  ofUser : ∀ a ∈ purchases, a.payment.userID = userID
  paid : ∀ a ∈ purchases, a.payment.plan ≠ .trial
  increasing : (purchases.map (·.time)).Pairwise (· < ·)

theorem value_conserved_iff (h : cfg.Reliable) {userID : ℕ} (s : Sequence userID) {w : World} :
    (Throughout cfg (Conserves cfg) s.purchases w ↔ Throughout cfg ConvertsExactly s.purchases w) ∧
      (Throughout cfg (fun a w => Fitting a w ∧ Clear a w) s.purchases w →
        Throughout cfg ConvertsExactly s.purchases w) := by
  refine ⟨⟨?_, ?_⟩, ?_⟩
  · exact fun hall => hall.imp fun a ha _ => (purchase_conserves_iff h (s.paid a ha)).mp
  · exact fun hall => hall.imp fun a ha _ => (purchase_conserves_iff h (s.paid a ha)).mpr
  · exact fun hall => hall.imp fun _ _ _ hfit => wholeHours_of_clear hfit.1 hfit.2

def samplePayment (id : ℕ) (plan : PlanType) (h : plan ≠ .free) : Payment where
  id := id
  createdAt := 0
  userID := 7
  yooKassaID := ""
  amount := (priceOf plan).amount
  originalAmount := (priceOf plan).amount
  discountAmount := 0
  currency := "RUB"
  status := .succeeded
  plan := plan
  confirmURL := ""
  confirmedAt := none
  promoCodeID := none
  plan_priced := h

def samplePurchase (i : ℕ) (plan : PlanType) (h : plan ≠ .free) : Purchase :=
  ⟨i, samplePayment i plan h, ""⟩

def paidUntil (plan : PlanType) (expiresAt : ℤ) : Subscription :=
  ⟨1, 7, plan, .active, expiresAt, false, ""⟩

def worldWith (sub : Subscription) : World :=
  .start { Db.empty with subscriptions := ⟨[sub], sub.id + 1, by simp [Valid, Record.id]⟩ } 0
    (.answering (fun _ => none) [])

def oneUpgrade : Sequence 7 where
  purchases := [samplePurchase 0 .vip3M (by decide)]
  ofUser := by decide
  paid := by decide
  increasing := by decide

/-- 203 hours of the cheapest plan are worth 101 hours of VIP for three months. Their `float64`
product is a little less, and 100 hours are added. -/
theorem upgrade_loses_an_hour :
    (Setup.standard "").Reliable ∧
      (∀ sub, (worldWith (paidUntil .basic3M (203 * hour))).db.subscriptionOf 7 = some sub →
        sub.plan ≠ .free ∧ sub.expiresAt < addDate 0 100 0 0) ∧
      ¬ Throughout (.standard "") (Conserves (.standard "")) oneUpgrade.purchases
        (worldWith (paidUntil .basic3M (203 * hour))) := by
  refine ⟨Setup.standard_reliable "", ?_, ?_⟩
  · intro sub hs
    obtain rfl : paidUntil .basic3M (203 * hour) = sub := Option.some.inj hs
    exact ⟨by decide, by decide +kernel⟩
  · rintro ⟨⟨hlow, -⟩, -⟩
    rw [valueOf_apply (Setup.standard_reliable ""), valueOf] at hlow
    exact absurd hlow (by decide +kernel)

def upgradeSequence : Sequence 7 where
  purchases := [samplePurchase 0 .basic (by decide), samplePurchase 1 .vip (by decide)]
  ofUser := by decide
  paid := by decide
  increasing := by decide

def emptyWorld : World := .start Db.empty 0 (.answering (fun _ => none) [])

theorem upgrade_conserves_value :
    Throughout (.standard "") (Conserves (.standard "")) upgradeSequence.purchases emptyWorld := by
  have hall := value_conserved_iff (Setup.standard_reliable "") upgradeSequence (w := emptyWorld)
  exact hall.1.mpr (hall.2 ⟨by decide +kernel, by decide +kernel, trivial⟩)

end SubscriptionValue
