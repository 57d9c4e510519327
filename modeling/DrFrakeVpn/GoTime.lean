import DrFrakeVpn.BinaryRounding

/-! # Go time values in UTC

Times and durations are whole nanoseconds, times since the epoch. A duration is a 64-bit
value: a difference saturates and a product wraps. A `float64` is the rational it stands for. -/
namespace GoTime

open BinaryRounding

def hour : ℤ := 3600000000000
def day : ℤ := 24 * hour
def maxDuration : ℤ := 2 ^ 63 - 1
def minDuration : ℤ := -2 ^ 63

/-- `t.Sub(u)`, which answers the nearest duration when the difference is out of range. -/
def sub (t u : ℤ) : ℤ := max minDuration (min maxDuration (t - u))

/-- The nearest `float64`. -/
def float64 (x : ℚ) : ℚ := round 53 x

/-- `d.Hours()`: the whole hours and the nanoseconds beyond them are converted apart. -/
def hours (d : ℤ) : ℚ := float64 (d.tdiv hour + float64 (d.tmod hour / hour))

/-- Conversion of a rational to an integer, toward zero. -/
def trunc (x : ℚ) : ℤ := if 0 ≤ x then ⌊x⌋ else ⌈x⌉

/-- `time.Duration(x) * time.Hour`, a 64-bit product that wraps around. -/
def ofHours (x : ℚ) : ℤ := Int.bmod (trunc x * hour) (2 ^ 64)

variable {x : ℚ}

theorem day_pos : (0 : ℚ) < day := by norm_num [day, hour]

/-- The relative error of one `float64` operation. -/
def rounding : ℚ := unit 53

theorem float64_near (h : 0 ≤ x) : Near rounding x (float64 x) := round_near h

theorem hours_near {d : ℤ} (h : 0 ≤ d) : Near (3 * rounding) (d / hour : ℚ) (hours d) := by
  have hwhole : (0 : ℚ) ≤ d.tdiv hour := by exact_mod_cast Int.tdiv_nonneg h (by decide)
  have hrest : (0 : ℚ) ≤ (d.tmod hour : ℚ) / hour :=
    div_nonneg (by exact_mod_cast Int.tmod_nonneg hour h) (by norm_num [hour])
  have hsplit : (d.tdiv hour : ℚ) + d.tmod hour / hour = d / hour := by
    have hdiv : (d : ℚ) = d.tmod hour + hour * d.tdiv hour := by
      exact_mod_cast (Int.tmod_add_mul_tdiv d hour).symm
    have hne : (hour : ℚ) ≠ 0 := by norm_num [hour]
    rw [hdiv]
    field_simp
    ring
  have hsum := (float64_near hrest).add_left hwhole (by norm_num [rounding, unit])
  have hx : (0 : ℚ) ≤ d.tdiv hour + d.tmod hour / hour := add_nonneg hwhole hrest
  have herror : Compound rounding rounding (3 * rounding) := by
    constructor <;> norm_num [rounding, unit]
  rw [← hsplit]
  exact hsum.trans (float64_near (hsum.nonneg hx (by norm_num [rounding, unit]))) hx herror

theorem sub_of_fits {t u} (h₀ : u ≤ t) (h : t - u ≤ maxDuration) : sub t u = t - u := by
  unfold sub
  have h₁ : minDuration ≤ t - u := by
    unfold minDuration
    omega
  rw [min_eq_right h, max_eq_right h₁]

theorem trunc_of_nonneg (h : 0 ≤ x) : trunc x = ⌊x⌋ := if_pos h

theorem trunc_le (h : 0 ≤ x) : (trunc x : ℚ) ≤ x := by
  rw [trunc_of_nonneg h]
  exact Int.floor_le x

theorem lt_trunc_add_one (h : 0 ≤ x) : x < trunc x + 1 := by
  rw [trunc_of_nonneg h]
  exact Int.lt_floor_add_one x

theorem trunc_nonneg (h : 0 ≤ x) : 0 ≤ trunc x := by
  rw [trunc_of_nonneg h]
  exact Int.floor_nonneg.mpr h

theorem ofHours_of_fits (h₀ : 0 ≤ x) (h : trunc x * hour ≤ maxDuration) :
    ofHours x = trunc x * hour := by
  have hn := trunc_nonneg h₀
  apply Int.bmod_eq_of_le
  · unfold hour at *
    omega
  · unfold maxDuration at h
    omega

/-- Too many hours wrap around. -/
theorem ofHours_of_overflow (h : maxDuration < trunc x * hour) :
    ofHours x ≤ trunc x * hour - 2 ^ 64 := by
  have hsplit := Int.bmod_add_bdiv (trunc x * hour) (2 ^ 64)
  have hlt : Int.bmod (trunc x * hour) (2 ^ 64) < ((2 ^ 64 : ℕ) + 1) / 2 := Int.bmod_lt (by decide)
  unfold maxDuration at h
  unfold ofHours
  omega

/-- A calendar day in years that start in March, so that the leap day is the last one:
`month` counts from March and `mday` from zero. -/
structure Civil where
  year : ℤ
  month : ℤ
  mday : ℤ
  deriving DecidableEq, Repr

/-- Days from 1 March of year zero to the epoch of the clock, 1 January 1970. -/
def epochDays : ℤ := 719468

/-- Cuts off the cycles of 400, 100 and 4 years and then whole years, as Go's dates do. -/
def civilOfDays (z : ℤ) : Civil :=
  let era := (z + epochDays) / 146097
  let d400 := (z + epochDays) % 146097
  let century := min 3 (d400 / 36524)
  let d100 := d400 - 36524 * century
  let quad := d100 / 1461
  let d4 := d100 % 1461
  let yr := min 3 (d4 / 365)
  let yday := d4 - 365 * yr
  let month := (5 * yday + 2) / 153
  ⟨400 * era + 100 * century + 4 * quad + yr, month, yday - (153 * month + 2) / 5⟩

/-- The day number of a date; a month or a day past its range runs over into the next. -/
def daysOfCivil (c : Civil) : ℤ :=
  let y := c.year + c.month / 12
  let m := c.month % 12
  365 * y + y / 4 - y / 100 + y / 400 + (153 * m + 2) / 5 + c.mday - epochDays

/-- `t.AddDate(years, months, days)`. -/
def addDate (t : ℤ) (years months days : ℤ) : ℤ :=
  let c := civilOfDays (t / day)
  (daysOfCivil ⟨c.year + years, c.month + months, c.mday + days⟩) * day + t % day

theorem daysOfCivil_shift :
    daysOfCivil ⟨y, m, d + n⟩ = daysOfCivil ⟨y, m, d⟩ + n := by
  simp only [daysOfCivil]
  ring

theorem daysOfCivil_civilOfDays (z : ℤ) : daysOfCivil (civilOfDays z) = z := by
  have hd400 := Int.emod_nonneg (z + epochDays) (show (146097 : ℤ) ≠ 0 by decide)
  have hd400' := Int.emod_lt_of_pos (z + epochDays) (show (0 : ℤ) < 146097 by decide)
  have hz := Int.emod_add_mul_ediv (z + epochDays) 146097
  simp only [civilOfDays, daysOfCivil]
  generalize (z + epochDays) % 146097 = d400 at *
  generalize (z + epochDays) / 146097 = era at *
  -- The quotients are capped at three because the last century and year are longer.
  have hc : min 3 (d400 / 36524) * 36524 ≤ d400 ∧ 0 ≤ min 3 (d400 / 36524) ∧
      min 3 (d400 / 36524) ≤ 3 ∧ d400 - 36524 * min 3 (d400 / 36524) ≤ 36524 := by omega
  generalize min 3 (d400 / 36524) = century at *
  have hsplit := Int.emod_add_mul_ediv (d400 - 36524 * century) 1461
  have hr := Int.emod_nonneg (d400 - 36524 * century) (show (1461 : ℤ) ≠ 0 by decide)
  have hr' := Int.emod_lt_of_pos (d400 - 36524 * century) (show (0 : ℤ) < 1461 by decide)
  generalize (d400 - 36524 * century) / 1461 = quad at *
  generalize (d400 - 36524 * century) % 1461 = d4 at *
  have hy : 0 ≤ min 3 (d4 / 365) ∧ min 3 (d4 / 365) ≤ 3 ∧
      0 ≤ d4 - 365 * min 3 (d4 / 365) ∧ d4 - 365 * min 3 (d4 / 365) ≤ 365 := by omega
  generalize min 3 (d4 / 365) = yr at *
  have hm : 0 ≤ (5 * (d4 - 365 * yr) + 2) / 153 ∧ (5 * (d4 - 365 * yr) + 2) / 153 ≤ 11 := by
    omega
  generalize (5 * (d4 - 365 * yr) + 2) / 153 = month at *
  have hyear : (400 * era + 100 * century + 4 * quad + yr + month / 12) =
      400 * era + 100 * century + 4 * quad + yr := by omega
  have hmonth : month % 12 = month := by omega
  have h4 : (400 * era + 100 * century + 4 * quad + yr) / 4 = 100 * era + 25 * century + quad := by
    omega
  have h100 : (400 * era + 100 * century + 4 * quad + yr) / 100 = 4 * era + century := by omega
  have h400 : (400 * era + 100 * century + 4 * quad + yr) / 400 = era := by omega
  rw [hyear, hmonth, h4, h100, h400]
  omega

theorem addDate_days : addDate t 0 0 n = t + n * day := by
  have h := daysOfCivil_civilOfDays (t / day)
  have ht := Int.emod_add_mul_ediv t day
  simp only [addDate, add_zero, daysOfCivil_shift]
  rw [h]
  linarith

end GoTime
