import Excimer.Profiler.Period
import Excimer.Timer.Seconds

/-!
The period of a profiler as the user gives it, a floating-point number of
seconds. `excimer.c` makes three numbers of it: the period of the timer, the
period of the log in nanoseconds, and the time of the first expiry. The last one
is a random share of the period, so that a request that is shorter than a period
has a chance of being sampled.
-/

namespace Excimer.Profiler

open Floating
open Timer (Timespec billion billion_value effectiveInitial timespecToNs timespecToNs_toNat)

/-- `php_mt_rand() * period / UINT32_MAX` -/
def stagger (draw : UInt32) (period : Double) : Double :=
  ((Double.nearest draw.toNat).mul period).div (.nearest 4294967295)

/-- `period * EXCIMER_BILLION` as a `uint64_t` -/
def logPeriod (period : Double) : UInt64 := .ofInt (period.mul billion).toInt

/-- What `ExcimerProfiler_new` and `ExcimerProfiler::setPeriod` store. -/
structure Intervals where
  period : Timespec
  initial : Timespec
  logPeriod : UInt64
  deriving DecidableEq

def Intervals.ofSeconds (draw : UInt32) (period : Double) : Intervals where
  period := .fromDouble period
  initial := .fromDouble (stagger draw period)
  logPeriod := Profiler.logPeriod period

/-- The time of the first expiry, as `excimer_timer_start` sees it. -/
def Intervals.first (intervals : Intervals) : Timespec :=
  effectiveInitial intervals.period intervals.initial

section Stagger

variable {draw other : UInt32} {period : Double}

theorem stagger_value (draw : UInt32) (period : Double) :
    (stagger draw period).value =
      binary64.round (binary64.round (draw.toNat * period.value) / 4294967295) := by
  have hdraw : binary64.round (draw.toNat : ℚ) = draw.toNat := by
    have hlt := draw.toNat_lt
    exact_mod_cast Timer.round_int (n := draw.toNat) (abs_lt.mpr (by omega))
  have hmax : binary64.round 4294967295 = 4294967295 :=
    Timer.round_int (n := 4294967295) (by decide)
  rw [stagger, Double.div_value, Double.mul_value, Double.nearest_value, Double.nearest_value,
    hdraw, hmax]

theorem stagger_nonneg (draw : UInt32) (hperiod : 0 ≤ period.value) :
    0 ≤ (stagger draw period).value := by
  rw [stagger_value]
  refine Format.round_nonneg (div_nonneg (Format.round_nonneg ?_) (by norm_num))
  exact mul_nonneg (Nat.cast_nonneg _) hperiod

theorem stagger_mono (hperiod : 0 ≤ period.value) (hle : draw ≤ other) :
    (stagger draw period).value ≤ (stagger other period).value := by
  have hnat : (draw.toNat : ℚ) ≤ other.toNat := by exact_mod_cast UInt32.le_iff_toNat_le.mp hle
  rw [stagger_value, stagger_value]
  refine Format.round_mono (div_le_div_of_nonneg_right ?_ (by norm_num))
  exact Format.round_mono (mul_le_mul_of_nonneg_right hnat hperiod)

/-- All draws but the largest leave room for the error of the product. -/
theorem stagger_le (hperiod : 0 ≤ period.value) (hdraw : draw.toNat < 4294967295) :
    (stagger draw period).value ≤ period.value := by
  rw [stagger_value]
  refine period.representable.round_le ?_
  rw [div_le_iff₀ (by norm_num)]
  rcases (mul_nonneg (Nat.cast_nonneg (α := ℚ) draw.toNat) hperiod).eq_or_lt with hzero | hpos
  · rw [← hzero, Format.round_zero]
    positivity
  · have hdraw' : (draw.toNat : ℚ) + 1 ≤ 4294967295 := by exact_mod_cast hdraw
    have hroom := mul_le_mul_of_nonneg_right hdraw' hperiod
    have hpositive : 0 < period.value := pos_of_mul_pos_right hpos (Nat.cast_nonneg _)
    have hulp := period.representable.ulp_le hpositive hpos (by norm_num [binary64]; linarith)
    have herror := (abs_le.mp (Format.abs_round_sub_le (F := binary64)
      (draw.toNat * period.value))).2
    linarith

/-- The distance from the exact share, for periods up to 48 days. -/
theorem abs_stagger_sub_le (draw : UInt32) (hperiod : 0 ≤ period.value)
    (hlt : period.value < 2 ^ 22) :
    |(stagger draw period).value - draw.toNat * period.value / 4294967295| ≤ 7 / 10 ^ 10 := by
  have hproduct_nonneg := mul_nonneg (Nat.cast_nonneg (α := ℚ) draw.toNat) hperiod
  have hproduct_lt : draw.toNat * period.value < (2 : ℚ) ^ 54 := by
    have hdraw : (draw.toNat : ℚ) < 2 ^ 32 := by exact_mod_cast draw.toNat_lt
    calc draw.toNat * period.value < (2 : ℚ) ^ 32 * 2 ^ 22 :=
          mul_lt_mul'' hdraw hlt (Nat.cast_nonneg _) hperiod
      _ = (2 : ℚ) ^ 54 := by norm_num
  have hproduct := Timer.abs_round_sub_le hproduct_nonneg hproduct_lt
  have hshare_nonneg : 0 ≤ binary64.round (draw.toNat * period.value) / 4294967295 :=
    div_nonneg (Format.round_nonneg hproduct_nonneg) (by norm_num)
  norm_num at hproduct hproduct_lt
  rw [abs_le] at hproduct
  have hshare_lt : binary64.round (draw.toNat * period.value) / 4294967295 < (2 : ℚ) ^ 23 := by
    norm_num
    linarith
  have hshare := Timer.abs_round_sub_le hshare_nonneg hshare_lt
  rw [← stagger_value] at hshare
  norm_num at hshare
  rw [abs_le] at hshare ⊢
  constructor <;> norm_num <;> linarith

theorem share_le (hperiod : 0 ≤ period.value) (draw : UInt32) :
    draw.toNat * period.value / 4294967295 ≤ period.value := by
  have hdraw : (draw.toNat : ℚ) ≤ 4294967295 := by
    have := draw.toNat_lt
    exact_mod_cast (by omega : draw.toNat ≤ 4294967295)
  rw [div_le_iff₀ (by norm_num), mul_comm]
  exact mul_le_mul_of_nonneg_left hdraw hperiod

theorem stagger_le_succ (hperiod : 0 ≤ period.value) (hlt : period.value < 2 ^ 22) :
    (stagger draw period).value ≤ period.value + 1 := by
  have habove := (abs_le.mp (abs_stagger_sub_le draw hperiod hlt)).2
  have hshare := share_le hperiod draw
  norm_num at habove
  linarith

/-- The exact share in nanoseconds is met to less than two nanoseconds. -/
theorem initial_share (hperiod : 0 ≤ period.value) (hlt : period.value < 2 ^ 22)
    (draw : UInt32) :
    draw.toNat * period.value / 4294967295 * 1000000000 - 2 <
        (Timespec.fromDouble (stagger draw period)).nanoseconds ∧
      ((Timespec.fromDouble (stagger draw period)).nanoseconds : ℚ) <
        draw.toNat * period.value / 4294967295 * 1000000000 + 9 / 10 := by
  obtain ⟨hlow, hhigh⟩ := abs_le.mp (abs_stagger_sub_le draw hperiod hlt)
  obtain ⟨hbelow, habove⟩ := Timespec.fromDouble_nanoseconds (stagger_nonneg draw hperiod)
  norm_num at hlow hhigh hbelow habove
  constructor <;> linarith

theorem abs_initial_sub_lt (hperiod : 0 ≤ period.value) (hlt : period.value < 2 ^ 22)
    (draw : UInt32) :
    |((Timespec.fromDouble (stagger draw period)).nanoseconds : ℚ) -
      draw.toNat * period.value / 4294967295 * 1000000000| < 2 := by
  obtain ⟨hlow, hhigh⟩ := initial_share hperiod hlt draw
  rw [abs_lt]
  constructor <;> linarith

theorem initial_le_succ (hperiod : 0 ≤ period.value) (hlt : period.value < 2 ^ 22)
    (draw : UInt32) :
    (Timespec.fromDouble (stagger draw period)).nanoseconds ≤
      (Timespec.fromDouble period).nanoseconds + 1 := by
  have hshare := share_le hperiod draw
  have hinitial := (initial_share hperiod hlt draw).2
  have hlength := (Timespec.fromDouble_nanoseconds hperiod).1
  norm_num at hlength
  have hless : ((Timespec.fromDouble (stagger draw period)).nanoseconds : ℚ) <
      (Timespec.fromDouble period).nanoseconds + 2 := by
    linarith
  have hless' : (Timespec.fromDouble (stagger draw period)).nanoseconds <
      (Timespec.fromDouble period).nanoseconds + 2 := by
    exact_mod_cast hless
  omega

/-- The first sample of a profiler is due within its first period. Its time grows
with the drawn number in proportion, and only the largest number of all can delay
it by another nanosecond. A share that is truncated to zero means a whole period. -/
theorem firstExpiry_within_period (hperiod : 0 ≤ period.value) (hlt : period.value < 2 ^ 22)
    (draw : UInt32) :
    (Intervals.ofSeconds draw period).initial.Valid ∧
    |((Intervals.ofSeconds draw period).initial.nanoseconds : ℚ) -
      draw.toNat * period.value / 4294967295 * 1000000000| < 2 ∧
    (∀ other, draw ≤ other → (Intervals.ofSeconds draw period).initial.nanoseconds ≤
      (Intervals.ofSeconds other period).initial.nanoseconds) ∧
    ((Intervals.ofSeconds draw period).period.isZero = false →
      0 < (Intervals.ofSeconds draw period).first.nanoseconds) ∧
    (Intervals.ofSeconds draw period).first.nanoseconds ≤
      (Intervals.ofSeconds draw period).period.nanoseconds + 1 ∧
    (draw.toNat < 4294967295 → (Intervals.ofSeconds draw period).first.nanoseconds ≤
      (Intervals.ofSeconds draw period).period.nanoseconds) := by
  set intervals := Intervals.ofSeconds draw period
  have hlimit : (2 : ℚ) ^ 22 + 1 < 2 ^ 63 := by norm_num
  have hshort : period.value < 2 ^ 63 := by linarith
  have hperiod_valid : intervals.period.Valid := Timespec.fromDouble_valid hshort
  have hinitial_valid : intervals.initial.Valid := by
    refine Timespec.fromDouble_valid (lt_of_le_of_lt (stagger_le_succ hperiod hlt) ?_)
    linarith
  have hcases : intervals.first = intervals.period ∨ intervals.initial.isZero = false ∧
      intervals.first = intervals.initial := by
    cases hzero : intervals.initial.isZero with
    | true => exact Or.inl (if_pos hzero)
    | false => exact Or.inr ⟨rfl, if_neg (by simp [hzero])⟩
  refine ⟨hinitial_valid, abs_initial_sub_lt hperiod hlt draw, ?_, ?_, ?_, ?_⟩
  · intro other hle
    exact Timespec.fromDouble_mono (stagger_mono hperiod hle)
  · intro hnonzero
    rcases hcases with hfirst | ⟨hinitial, hfirst⟩
    · rw [hfirst]
      exact hperiod_valid.nanoseconds_pos hnonzero
    · rw [hfirst]
      exact hinitial_valid.nanoseconds_pos hinitial
  · rcases hcases with hfirst | ⟨-, hfirst⟩
    · rw [hfirst]
      omega
    · rw [hfirst]
      exact initial_le_succ hperiod hlt draw
  · intro hdraw
    rcases hcases with hfirst | ⟨-, hfirst⟩
    · rw [hfirst]
    · rw [hfirst]
      exact Timespec.fromDouble_mono (stagger_le hperiod hdraw)

/-- The smallest and the largest draw. -/
theorem firstExpiry_within_period_extremes :
    let period := Double.nearest (1 / 10)
    let least := Intervals.ofSeconds 0 period
    let largest := Intervals.ofSeconds 4294967295 period
    least.initial = ⟨0, 0⟩ ∧ largest.initial = ⟨0, 100000000⟩ ∧
      0 < least.first.nanoseconds ∧ 0 < largest.first.nanoseconds := by
  intro period least largest
  have hvalue : 0 ≤ period.value ∧ period.value < 2 ^ 22 := by decide +kernel
  obtain ⟨-, -, -, hleast, -⟩ := firstExpiry_within_period hvalue.1 hvalue.2 0
  obtain ⟨-, -, -, hlargest, -⟩ := firstExpiry_within_period hvalue.1 hvalue.2 4294967295
  exact ⟨by decide +kernel, by decide +kernel, hleast (by decide +kernel),
    hlargest (by decide +kernel)⟩

end Stagger

section LogPeriod

variable {period : Double}

theorem round_billion (hperiod : 0 ≤ period.value) (hlt : period.value < 2 ^ 22) :
    0 ≤ binary64.round (period.value * 1000000000) ∧
      period.value * 1000000000 - 1 / 4 ≤ binary64.round (period.value * 1000000000) ∧
      binary64.round (period.value * 1000000000) ≤ period.value * 1000000000 + 1 / 4 := by
  have hnonneg : 0 ≤ period.value * 1000000000 := by linarith
  have hless : period.value * 1000000000 < 2 ^ 52 := by
    norm_num at hlt ⊢
    linarith
  have herror := Timer.abs_round_sub_le hnonneg hless
  norm_num at herror
  rw [abs_le] at herror
  refine ⟨Format.round_nonneg hnonneg, ?_, ?_⟩
  · linarith
  · linarith

theorem logPeriod_toNat (hperiod : 0 ≤ period.value) (hlt : period.value < 2 ^ 22) :
    ((logPeriod period).toNat : ℤ) = ⌊binary64.round (period.value * 1000000000)⌋ := by
  obtain ⟨hnonneg, hbelow, habove⟩ := round_billion hperiod hlt
  have hfloor := Int.floor_nonneg.mpr hnonneg
  have hless : ⌊binary64.round (period.value * 1000000000)⌋ < 2 ^ 64 := by
    rw [Int.floor_lt]
    norm_num at hlt ⊢
    linarith
  rw [logPeriod, Timer.ofInt_toNat, Double.toInt, Double.mul_value, billion_value,
    truncate_of_nonneg hnonneg]
  omega

theorem fromDouble_toNs (hperiod : 0 ≤ period.value) (hlt : period.value < 2 ^ 22) :
    ((timespecToNs (.fromDouble period)).toNat : ℤ) =
      (Timespec.fromDouble period).nanoseconds := by
  have hle := (Timespec.fromDouble_nanoseconds hperiod).2
  have hvalid : (Timespec.fromDouble period).Valid := by
    refine Timespec.fromDouble_valid (hlt.trans ?_)
    norm_num
  have hless : (Timespec.fromDouble period).nanoseconds < 2 ^ 64 := by
    have hless : ((Timespec.fromDouble period).nanoseconds : ℚ) < 2 ^ 64 := by
      norm_num at hle hlt ⊢
      linarith
    exact_mod_cast hless
  have hnonneg := hvalid.nanoseconds_nonneg
  rw [timespecToNs_toNat]
  omega

theorem abs_floor_sub_le (hperiod : 0 ≤ period.value) (hlt : period.value < 2 ^ 22) :
    |⌊binary64.round (period.value * 1000000000)⌋ -
      (Timespec.fromDouble period).nanoseconds| ≤ 1 := by
  obtain ⟨-, hbelow, habove⟩ := round_billion hperiod hlt
  obtain ⟨hgt, hle⟩ := Timespec.fromDouble_nanoseconds hperiod
  have hfloor := Int.floor_le (binary64.round (period.value * 1000000000))
  have hnext := Int.lt_floor_add_one (binary64.round (period.value * 1000000000))
  norm_num at hgt hle
  have hless : |(⌊binary64.round (period.value * 1000000000)⌋ : ℚ) -
      (Timespec.fromDouble period).nanoseconds| < 2 := by
    rw [abs_lt]
    constructor <;> linarith
  have hless' : |⌊binary64.round (period.value * 1000000000)⌋ -
      (Timespec.fromDouble period).nanoseconds| < 2 := by
    exact_mod_cast hless
  exact Int.le_of_lt_add_one hless'

/-- The timer and the log have the same period when it is below a second. Above,
they may differ by one nanosecond. -/
theorem logPeriod_agrees (hperiod : 0 ≤ period.value) (hlt : period.value < 2 ^ 22)
    (draw : UInt32) :
    (period.value < 1 → (Intervals.ofSeconds draw period).logPeriod =
      timespecToNs (Intervals.ofSeconds draw period).period) ∧
    |((Intervals.ofSeconds draw period).logPeriod.toNat : ℤ) -
      (timespecToNs (Intervals.ofSeconds draw period).period).toNat| ≤ 1 := by
  set intervals := Intervals.ofSeconds draw period
  have hlog : (intervals.logPeriod.toNat : ℤ) = _ := logPeriod_toNat hperiod hlt
  have hns : ((timespecToNs intervals.period).toNat : ℤ) = intervals.period.nanoseconds :=
    fromDouble_toNs hperiod hlt
  constructor
  · intro hone
    have hfloor : ⌊period.value⌋ = 0 := Int.floor_eq_zero_iff.mpr ⟨hperiod, hone⟩
    have hsame : intervals.period.nanoseconds =
        ⌊binary64.round (period.value * 1000000000)⌋ := by
      show (Timespec.fromDouble period).nanoseconds = _
      rw [Timespec.fromDouble_eq hperiod, Timespec.nanoseconds, Timespec.scaled, Int.fract, hfloor]
      simp
    rw [← UInt64.toNat_inj]
    omega
  · rw [hlog, hns]
    exact abs_floor_sub_le hperiod hlt

theorem logPeriod_agrees_instances :
    let short := Intervals.ofSeconds 7 (.nearest (1 / 10))
    let long := Intervals.ofSeconds 7 (.nearest (5046337968575 / 1000000000))
    short.logPeriod = timespecToNs short.period ∧
    |(long.logPeriod.toNat : ℤ) - (timespecToNs long.period).toNat| ≤ 1 ∧
      long.logPeriod ≠ timespecToNs long.period :=
  ⟨(logPeriod_agrees (by decide +kernel) (by decide +kernel) 7).1 (by decide +kernel),
    (logPeriod_agrees (by decide +kernel) (by decide +kernel) 7).2, by decide +kernel⟩

end LogPeriod

end Excimer.Profiler
