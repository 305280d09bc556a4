import Excimer.Lib.Floating
import Excimer.Timer.Arithmetic

/-!
Seconds as floating-point numbers. The methods of the PHP classes take and return
a `double`, which `timerlib_common.c` and `timerlib.h` convert to a timespec and
back. A number that is not below 2^63 seconds does not fit into a `time_t`, and
its conversion is undefined.
-/

namespace Excimer.Timer

open Floating

/-- `1e9` -/
def billion : Double := .nearest 1000000000

namespace Timespec

/-- `timerlib_timespec_from_double` -/
def fromDouble (source : Double) : Timespec :=
  if source.value < 0 then
    ⟨0, 0⟩
  else
    let tvSec := source.integral.toInt
    let tvNsec := (source.fractional.mul billion).toInt
    if tvNsec ≥ 1000000000 then
      ⟨tvSec + 1, tvNsec - 1000000000⟩
    else
      ⟨tvSec, tvNsec⟩

/-- `timerlib_timespec_to_double` -/
def toDouble (ts : Timespec) : Double :=
  (Double.nearest (timespecToNs ts).toNat).mul (.nearest (1 / 1000000000))

end Timespec

section Rounding

theorem round_int {n : ℤ} (hn : |n| < 2 ^ 53) : binary64.round n = n :=
  Format.Representable.round_eq ⟨n, 0, by decide, hn, by simp⟩

@[simp] theorem billion_value : billion.value = 1000000000 :=
  round_int (n := 1000000000) (by decide)

/-- The error of the rounding of a number below a power of two. -/
theorem abs_round_sub_le {x : ℚ} {k : ℕ} (hx : 0 ≤ x) (hlt : x < 2 ^ k) :
    |binary64.round x - x| ≤ 2 ^ k / 2 ^ 54 := by
  have hpower : (2 : ℚ) ^ ((k : ℤ) - 53) / 2 = 2 ^ k / 2 ^ 54 := by
    rw [zpow_sub₀ two_ne_zero, zpow_natCast]
    norm_num [div_div]
  have herror := Format.abs_round_sub_le_of_lt (F := binary64) (k := k) hx
    (by exact_mod_cast hlt) (by simp only [binary64]; omega)
  exact herror.trans_eq hpower

theorem abs_round_sub_le_mul {x : ℚ} (hx : 2 ^ (-64 : ℤ) ≤ x) :
    |binary64.round x - x| ≤ x / 2 ^ 53 := by
  have hpos : (0 : ℚ) ≤ 2 ^ (-64 : ℤ) := zpow_nonneg zero_le_two _
  have hnormal : (2 : ℚ) ^ (binary64.minExponent + binary64.precision) ≤ 2 ^ (-64 : ℤ) :=
    zpow_le_zpow_right₀ one_le_two (by decide)
  exact Format.abs_round_sub_le_mul (hpos.trans hx) (hnormal.trans hx)

end Rounding

namespace Timespec

theorem Valid.nanoseconds_pos {ts : Timespec} (hts : ts.Valid) (hzero : ts.isZero = false) :
    0 < ts.nanoseconds := by
  have hsec := hts.sec_nonneg
  have hnsec := hts.nsec_nonneg
  simp only [isZero, Bool.and_eq_false_iff, beq_eq_false_iff_ne] at hzero
  unfold nanoseconds
  omega

variable {source other : Double}

/-- What the conversion computes before it truncates. -/
def scaled (source : Double) : ℚ := binary64.round (Int.fract source.value * 1000000000)

/-- The product of a fraction and one billion is off by at most 2^-24. -/
theorem abs_scaled_sub_le (source : Double) :
    |scaled source - Int.fract source.value * 1000000000| ≤ 1 / 2 ^ 24 := by
  have hnonneg := Int.fract_nonneg source.value
  have hone := Int.fract_lt_one source.value
  have herror := abs_round_sub_le (x := Int.fract source.value * 1000000000) (k := 30)
    (by linarith) (by norm_num; linarith)
  exact herror.trans_eq (by norm_num)

theorem scaled_nonneg (source : Double) : 0 ≤ scaled source :=
  Format.round_nonneg (mul_nonneg (Int.fract_nonneg _) (by norm_num))

/-- The largest fraction below one is far enough from one for the product to stay
below one billion. -/
theorem scaled_lt (hsource : 0 ≤ source.value) : scaled source < 1000000000 := by
  have hrepresentable : binary64.Representable (Int.fract source.value) :=
    (source.representable.floor (by decide) hsource).2
  have hone : Int.fract source.value < (2 : ℚ) ^ (0 : ℤ) := by
    simpa using Int.fract_lt_one source.value
  have hlargest := hrepresentable.le_of_lt_zpow hone
  have herror := (abs_le.mp (abs_scaled_sub_le source)).2
  norm_num [binary64] at hlargest herror
  linarith

theorem fractional_toInt (hsource : 0 ≤ source.value) :
    (source.fractional.mul billion).toInt = ⌊scaled source⌋ := by
  rw [Double.toInt, Double.mul_value, Double.fractional_value, billion_value,
    truncate_of_nonneg hsource, Int.self_sub_floor]
  exact truncate_of_nonneg (scaled_nonneg source)

theorem floor_scaled_lt (hsource : 0 ≤ source.value) : ⌊scaled source⌋ < 1000000000 :=
  Int.floor_lt.mpr (by exact_mod_cast scaled_lt hsource)

/-- The branch of the conversion that carries is never taken. -/
theorem fromDouble_eq (hsource : 0 ≤ source.value) :
    fromDouble source = ⟨⌊source.value⌋, ⌊scaled source⌋⟩ := by
  have hsec : source.integral.toInt = ⌊source.value⌋ := by
    have hfloor : (0 : ℚ) ≤ ⌊source.value⌋ := by exact_mod_cast Int.floor_nonneg.mpr hsource
    rw [Double.toInt, Double.integral_value, truncate_of_nonneg hsource,
      truncate_of_nonneg hfloor, Int.floor_intCast]
  rw [fromDouble, if_neg (not_lt.mpr hsource), hsec, fractional_toInt hsource,
    if_neg (not_le.mpr (floor_scaled_lt hsource))]

theorem fromDouble_neg (hsource : source.value < 0) : fromDouble source = ⟨0, 0⟩ := by
  rw [fromDouble, if_pos hsource]

theorem fromDouble_valid (hsource : source.value < 2 ^ 63) : (fromDouble source).Valid := by
  rcases lt_or_ge source.value 0 with hneg | hnonneg
  · rw [fromDouble_neg hneg]
    decide
  · rw [fromDouble_eq hnonneg]
    constructor
    · exact Int.floor_nonneg.mpr hnonneg
    · exact Int.floor_lt.mpr (by exact_mod_cast hsource)
    · exact Int.floor_nonneg.mpr (scaled_nonneg source)
    · exact floor_scaled_lt hnonneg

/-- Truncation loses less than a nanosecond, and the rounding of the product less
than 2^-24 of one. -/
theorem fromDouble_nanoseconds (hsource : 0 ≤ source.value) :
    source.value * 1000000000 - 1 - 1 / 2 ^ 24 < (fromDouble source).nanoseconds ∧
      ((fromDouble source).nanoseconds : ℚ) ≤ source.value * 1000000000 + 1 / 2 ^ 24 := by
  obtain ⟨hbelow, habove⟩ := abs_le.mp (abs_scaled_sub_le source)
  have hfloor := Int.floor_le (scaled source)
  have hnext := Int.lt_floor_add_one (scaled source)
  have hsplit := Int.floor_add_fract source.value
  have hlength : ((fromDouble source).nanoseconds : ℚ) =
      ⌊source.value⌋ * 1000000000 + ⌊scaled source⌋ := by
    rw [fromDouble_eq hsource]
    push_cast [nanoseconds]
    rfl
  rw [hlength]
  constructor <;> linarith

theorem fromDouble_mono (hle : source.value ≤ other.value) :
    (fromDouble source).nanoseconds ≤ (fromDouble other).nanoseconds := by
  rcases lt_or_ge source.value 0 with hneg | hsource
  · rw [fromDouble_neg hneg]
    rcases lt_or_ge other.value 0 with hneg' | hother
    · rw [fromDouble_neg hneg']
    · have hsec := Int.floor_nonneg.mpr hother
      have hnsec := Int.floor_nonneg.mpr (scaled_nonneg other)
      rw [fromDouble_eq hother]
      simp only [nanoseconds]
      omega
  · have hother := hsource.trans hle
    have hlt := floor_scaled_lt hsource
    have hnsec := Int.floor_nonneg.mpr (scaled_nonneg other)
    rw [fromDouble_eq hsource, fromDouble_eq hother]
    simp only [nanoseconds]
    rcases (Int.floor_le_floor hle).eq_or_lt with hsame | hless
    · have hfract : Int.fract source.value ≤ Int.fract other.value := by
        rw [Int.fract, Int.fract, hsame]
        linarith
      have hscaled : scaled source ≤ scaled other := Format.round_mono (by linarith)
      have hfloor := Int.floor_le_floor hscaled
      omega
    · omega

/-- A timespec is a rounded down length of time: the conversion gives a normalised
timespec without a use of its carry, is off by hardly more than a nanosecond, and
never exchanges two lengths. A negative number counts as zero. -/
theorem fromDouble_faithful (hsource : source.value < 2 ^ 63) :
    (fromDouble source).Valid ∧
    (source.value < 0 → (fromDouble source).isZero = true) ∧
    (0 ≤ source.value →
      (source.fractional.mul billion).toInt < 1000000000 ∧
      source.value * 1000000000 - 1 - 1 / 2 ^ 24 < (fromDouble source).nanoseconds ∧
        ((fromDouble source).nanoseconds : ℚ) ≤ source.value * 1000000000 + 1 / 2 ^ 24) ∧
    ∀ other : Double, source.value ≤ other.value →
      (fromDouble source).nanoseconds ≤ (fromDouble other).nanoseconds := by
  refine ⟨fromDouble_valid hsource, ?_, ?_, fun other => fromDouble_mono⟩
  · intro hneg
    rw [fromDouble_neg hneg]
    decide
  · intro hnonneg
    have hcarry := (fractional_toInt hnonneg).trans_lt (floor_scaled_lt hnonneg)
    exact ⟨hcarry, fromDouble_nanoseconds hnonneg⟩

theorem fromDouble_faithful_tenth :
    (fromDouble (.nearest (1 / 10))).Valid ∧
      fromDouble (.nearest (1 / 10)) = ⟨0, 100000000⟩ :=
  ⟨(fromDouble_faithful (by decide +kernel)).1, by decide +kernel⟩

variable {ts : Timespec}

theorem toDouble_value (hts : 0 ≤ ts.nanoseconds) (hle : ts.nanoseconds ≤ 2 ^ 51) :
    (toDouble ts).value = binary64.round (ts.nanoseconds * binary64.round (1 / 1000000000)) := by
  have hns : ((timespecToNs ts).toNat : ℤ) = ts.nanoseconds := by
    rw [timespecToNs_toNat]
    omega
  have hcast : (((timespecToNs ts).toNat : ℕ) : ℚ) = ((ts.nanoseconds : ℤ) : ℚ) := by
    rw [← hns, Int.cast_natCast]
  rw [toDouble, Double.mul_value, Double.nearest_value, Double.nearest_value, hcast,
    round_int (abs_lt.mpr (by omega))]

/-- The factor and the product are rounded once each. -/
theorem abs_toDouble_sub_le (hts : 0 ≤ ts.nanoseconds) (hle : ts.nanoseconds ≤ 2 ^ 51) :
    |(toDouble ts).value * 1000000000 - ts.nanoseconds| ≤ 3 / 4 := by
  rw [toDouble_value hts hle]
  obtain ⟨n, hn⟩ : ∃ n : ℚ, n = ts.nanoseconds := ⟨_, rfl⟩
  obtain ⟨c, hc⟩ : ∃ c, c = binary64.round (1 / 1000000000) := ⟨_, rfl⟩
  have hn_le : n ≤ 2 ^ 51 := by
    rw [hn]
    exact_mod_cast hle
  rw [← hn, ← hc]
  have hfactor : |c - 1 / 1000000000| ≤ 1 / 1000000000 / 2 ^ 53 := by
    rw [hc]
    exact abs_round_sub_le_mul (by norm_num)
  obtain ⟨hfactor_ge, hfactor_le⟩ := abs_le.mp hfactor
  norm_num at hfactor_ge hfactor_le hn_le
  rcases hts.eq_or_lt with hzero | hpos
  · rw [hn, ← hzero]
    norm_num
  · have hone : 1 ≤ n := by
      rw [hn]
      exact_mod_cast hpos
    have hproduct : |binary64.round (n * c) - n * c| ≤ n * c / 2 ^ 53 := by
      refine abs_round_sub_le_mul ?_
      norm_num
      nlinarith
    obtain ⟨hproduct_ge, hproduct_le⟩ := abs_le.mp hproduct
    norm_num at hproduct_ge hproduct_le
    rw [abs_le]
    constructor <;> nlinarith

/-- A length of time up to 26 days comes back from a floating-point number as it
was, or a nanosecond shorter. -/
theorem fromDouble_toDouble (hts : ts.Valid) (hle : ts.nanoseconds ≤ 2 ^ 51) :
    (fromDouble (toDouble ts)).Valid ∧
      ((fromDouble (toDouble ts)).nanoseconds = ts.nanoseconds ∨
        (fromDouble (toDouble ts)).nanoseconds = ts.nanoseconds - 1) := by
  have hnonneg := hts.nanoseconds_nonneg
  obtain ⟨hbelow, habove⟩ := abs_le.mp (abs_toDouble_sub_le hnonneg hle)
  have hvalue : 0 ≤ (toDouble ts).value := by
    rw [toDouble_value hnonneg hle]
    refine Format.round_nonneg (mul_nonneg (by exact_mod_cast hnonneg) ?_)
    exact Format.round_nonneg (by norm_num)
  have hle' : (ts.nanoseconds : ℚ) ≤ 2 ^ 51 := by exact_mod_cast hle
  refine ⟨fromDouble_valid ?_, ?_⟩
  · norm_num at hle' ⊢
    linarith
  · obtain ⟨hgt, hupper⟩ := fromDouble_nanoseconds hvalue
    have hlast : (ts.nanoseconds : ℚ) - 2 < (fromDouble (toDouble ts)).nanoseconds := by
      norm_num at hgt ⊢
      linarith
    have hnext : ((fromDouble (toDouble ts)).nanoseconds : ℚ) < ts.nanoseconds + 1 := by
      norm_num at hupper ⊢
      linarith
    have hlast' : ts.nanoseconds - 2 < (fromDouble (toDouble ts)).nanoseconds := by
      exact_mod_cast hlast
    have hnext' : (fromDouble (toDouble ts)).nanoseconds < ts.nanoseconds + 1 := by
      exact_mod_cast hnext
    omega

/-- Both outcomes occur. -/
theorem fromDouble_toDouble_instances :
    ((fromDouble (toDouble ⟨0, 500000000⟩)).Valid ∧
      fromDouble (toDouble ⟨0, 500000000⟩) = ⟨0, 500000000⟩) ∧
    ((fromDouble (toDouble ⟨2, 206144068⟩)).Valid ∧
      fromDouble (toDouble ⟨2, 206144068⟩) = ⟨2, 206144067⟩) :=
  ⟨⟨(fromDouble_toDouble (by decide) (by decide)).1, by decide +kernel⟩,
    (fromDouble_toDouble (by decide) (by decide)).1, by decide +kernel⟩

end Timespec

end Excimer.Timer
