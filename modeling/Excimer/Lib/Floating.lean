import Mathlib.Algebra.Order.Floor.Ring
import Mathlib.Data.Int.Log
import Mathlib.Data.Rat.Floor
import Mathlib.Tactic.Linarith
import Mathlib.Tactic.Ring

/-!
Floating-point numbers with a fixed number of significant bits, as rational
numbers. A format has gradual underflow and no largest number. Rounding is to the
nearest representable number, and to the one with an even significand if two are
equally near.
-/

namespace Floating

/-- The nearest integer, and the even one of two that are equally near. -/
def nearestEven (x : ℚ) : ℤ :=
  if 2 * Int.fract x < 1 then ⌊x⌋
  else if 2 * Int.fract x = 1 ∧ Even ⌊x⌋ then ⌊x⌋
  else ⌊x⌋ + 1

section NearestEven

variable {x y : ℚ} {n : ℤ}

/-- What it means to be the nearest integer. -/
def IsNearest (x : ℚ) (n : ℤ) : Prop := |x - n| < 1 / 2 ∨ |x - n| = 1 / 2 ∧ Even n

theorem nearestEven_isNearest (x : ℚ) : IsNearest x (nearestEven x) := by
  have hfract := Int.fract_nonneg x
  have hlt := Int.fract_lt_one x
  have hbelow : x - ⌊x⌋ = Int.fract x := Int.self_sub_floor x
  have habove : x - ((⌊x⌋ + 1 : ℤ) : ℚ) = Int.fract x - 1 := by
    push_cast
    linarith
  unfold nearestEven
  split
  next hless =>
    left
    rw [hbelow, abs_of_nonneg hfract]
    linarith
  next hmore =>
    split
    next htie =>
      right
      rw [hbelow, abs_of_nonneg hfract]
      exact ⟨by linarith [htie.1], htie.2⟩
    next hup =>
      rw [IsNearest, habove, abs_of_nonpos (by linarith)]
      rcases lt_or_eq_of_le (not_lt.mp hmore) with hgt | heq
      · exact Or.inl (by linarith)
      · refine Or.inr ⟨by linarith, ?_⟩
        have hodd : ¬Even ⌊x⌋ := fun heven => hup ⟨heq.symm, heven⟩
        exact Int.even_add_one.mpr hodd

theorem IsNearest.le (hn : IsNearest x n) : |x - n| ≤ 1 / 2 := by
  rcases hn with hlt | ⟨heq, -⟩
  · exact hlt.le
  · exact heq.le

theorem IsNearest.le_of_le {m : ℤ} (hn : IsNearest x n) (hm : IsNearest y m) (hle : x ≤ y) :
    n ≤ m := by
  by_contra hlt
  have hstep : (m : ℚ) + 1 ≤ n := by exact_mod_cast not_le.mp hlt
  have hx := (abs_le.mp hn.le).1
  have hy := (abs_le.mp hm.le).2
  -- Both numbers lie half way between two neighbours, which cannot both be even.
  have hneighbours : (n : ℚ) = m + 1 := by linarith
  have hsucc : n = m + 1 := by exact_mod_cast hneighbours
  have htie : ∀ z : ℚ, ∀ k : ℤ, IsNearest z k → |z - k| = 1 / 2 → Even k := by
    intro z k hk heq
    rcases hk with hlt | ⟨-, heven⟩
    · exact absurd heq hlt.ne
    · exact heven
  have hnEven := htie x n hn (by rw [abs_of_nonpos (by linarith)]; linarith)
  have hmEven := htie y m hm (by rw [abs_of_nonneg (by linarith)]; linarith)
  rw [hsucc, Int.even_add_one] at hnEven
  exact hnEven hmEven

theorem IsNearest.unique {m : ℤ} (hn : IsNearest x n) (hm : IsNearest x m) : n = m :=
  le_antisymm (hn.le_of_le hm le_rfl) (hm.le_of_le hn le_rfl)

theorem nearestEven_mono (hle : x ≤ y) : nearestEven x ≤ nearestEven y :=
  (nearestEven_isNearest x).le_of_le (nearestEven_isNearest y) hle

@[simp] theorem nearestEven_intCast (n : ℤ) : nearestEven (n : ℚ) = n :=
  (nearestEven_isNearest n).unique (Or.inl (by simp))

@[simp] theorem nearestEven_neg (x : ℚ) : nearestEven (-x) = -nearestEven x := by
  refine (nearestEven_isNearest (-x)).unique ?_
  have hdist : |-x - ((-nearestEven x : ℤ) : ℚ)| = |x - nearestEven x| := by
    rw [← abs_neg]
    congr 1
    push_cast
    ring
  rw [IsNearest, hdist, even_neg]
  exact nearestEven_isNearest x

theorem nearestEven_le (hle : x ≤ n) : nearestEven x ≤ n := by
  rw [← nearestEven_intCast n]
  exact nearestEven_mono hle

theorem le_nearestEven (hle : (n : ℚ) ≤ x) : n ≤ nearestEven x := by
  rw [← nearestEven_intCast n]
  exact nearestEven_mono hle

end NearestEven

/-- A format with significands of `precision` bits. No number has digits below
the place `minExponent`. -/
structure Format where
  precision : ℕ
  minExponent : ℤ
  precision_pos : 0 < precision

namespace Format

variable (F : Format) {x y r : ℚ}

/-- The exponent of the last place of a number. -/
def exponent (x : ℚ) : ℤ := max (Int.log 2 |x| + 1 - F.precision) F.minExponent

/-- The value of the last place of a number. -/
def ulp (x : ℚ) : ℚ := 2 ^ F.exponent x

def round (x : ℚ) : ℚ := nearestEven (x / F.ulp x) * F.ulp x

/-- A significand that fits the format, times a power of two. -/
def Representable (x : ℚ) : Prop :=
  ∃ m e : ℤ, F.minExponent ≤ e ∧ |m| < 2 ^ F.precision ∧ x = m * 2 ^ e

variable {F}

theorem ulp_pos (x : ℚ) : 0 < F.ulp x := zpow_pos two_pos _

@[simp] theorem exponent_neg (x : ℚ) : F.exponent (-x) = F.exponent x := by
  rw [exponent, exponent, abs_neg]

@[simp] theorem ulp_neg (x : ℚ) : F.ulp (-x) = F.ulp x := by
  rw [ulp, ulp, exponent_neg]

@[simp] theorem round_neg (x : ℚ) : F.round (-x) = -F.round x := by
  rw [round, round, ulp_neg, neg_div, nearestEven_neg]
  push_cast
  ring

@[simp] theorem round_zero : F.round 0 = 0 := by
  have hzero : nearestEven 0 = 0 := nearestEven_intCast 0
  simp [round, hzero]

/-- Rounding moves a number by at most half of its last place. -/
theorem abs_round_sub_le (x : ℚ) : |F.round x - x| ≤ F.ulp x / 2 := by
  have hpos := ulp_pos (F := F) x
  have hnear := (nearestEven_isNearest (x / F.ulp x)).le
  have hscale : F.round x - x = -((x / F.ulp x - nearestEven (x / F.ulp x)) * F.ulp x) := by
    rw [round, sub_mul, div_mul_cancel₀ x hpos.ne']
    ring
  rw [hscale, abs_neg, abs_mul, abs_of_pos hpos]
  calc
    |x / F.ulp x - nearestEven (x / F.ulp x)| * F.ulp x ≤ 1 / 2 * F.ulp x :=
      mul_le_mul_of_nonneg_right hnear hpos.le
    _ = F.ulp x / 2 := by ring

theorem log_lt {x : ℚ} {k : ℤ} (hpos : 0 < x) (hlt : x < 2 ^ k) : Int.log 2 x < k :=
  (Int.lt_zpow_iff_log_lt one_lt_two hpos).mp (by exact_mod_cast hlt)

theorem two_zpow_log_le {x : ℚ} (hpos : 0 < x) : (2 : ℚ) ^ Int.log 2 x ≤ x := by
  exact_mod_cast Int.zpow_log_le_self (b := 2) one_lt_two hpos

theorem lt_two_zpow_log (x : ℚ) : x < (2 : ℚ) ^ (Int.log 2 x + 1) := by
  exact_mod_cast Int.lt_zpow_succ_log_self (b := 2) one_lt_two x

theorem exponent_mono (hpos : 0 < x) (hle : x ≤ y) : F.exponent x ≤ F.exponent y := by
  unfold exponent
  rw [abs_of_pos hpos, abs_of_pos (hpos.trans_le hle)]
  have hlog := Int.log_mono_right (b := 2) hpos hle
  omega

/-- A representable number is a whole multiple of its last place, and of every
smaller place. -/
theorem Representable.multiple (hr : F.Representable r) {e : ℤ} (he : e ≤ F.exponent r) :
    ∃ k : ℤ, r = k * 2 ^ e := by
  obtain ⟨m, place, hmin, hm, rfl⟩ := hr
  rcases eq_or_ne m 0 with rfl | hne
  · exact ⟨0, by simp⟩
  have hpos : 0 < |(m : ℚ) * 2 ^ place| := by
    have hfactor : (m : ℚ) ≠ 0 := by exact_mod_cast hne
    exact abs_pos.mpr (mul_ne_zero hfactor (zpow_ne_zero _ two_ne_zero))
  have hbound : |(m : ℚ) * 2 ^ place| < 2 ^ ((F.precision : ℤ) + place) := by
    rw [abs_mul, zpow_add₀ two_ne_zero, abs_of_pos (zpow_pos two_pos place : (0 : ℚ) < 2 ^ place)]
    refine mul_lt_mul_of_pos_right ?_ (zpow_pos two_pos place)
    rw [zpow_natCast]
    exact_mod_cast hm
  have hlog := log_lt hpos hbound
  have hle : e ≤ place := by
    unfold exponent at he
    omega
  refine ⟨m * 2 ^ (place - e).toNat, ?_⟩
  push_cast
  rw [mul_assoc, ← zpow_natCast, ← zpow_add₀ two_ne_zero]
  congr 2
  omega

theorem round_of_multiple {k : ℤ} (hx : x = k * F.ulp x) : F.round x = x := by
  have hpos := ulp_pos (F := F) x
  have hdiv : x / F.ulp x = k := by
    rw [div_eq_iff hpos.ne']
    exact hx
  rw [round, hdiv, nearestEven_intCast]
  exact hx.symm

/-- A representable number is its own rounding. -/
theorem Representable.round_eq (hr : F.Representable r) : F.round r = r := by
  obtain ⟨k, hk⟩ := hr.multiple le_rfl
  exact round_of_multiple hk

theorem representable_zpow {k : ℤ} (hk : F.minExponent ≤ k) : F.Representable (2 ^ k) := by
  refine ⟨1, k, hk, ?_, by simp⟩
  have hone : (1 : ℤ) < 2 ^ F.precision := one_lt_pow₀ (by decide) F.precision_pos.ne'
  simpa using hone

theorem minExponent_le (x : ℚ) : F.minExponent ≤ F.exponent x := le_max_right _ _

/-- The significand of a number before rounding. -/
theorem abs_div_ulp_lt (x : ℚ) : |x / F.ulp x| < 2 ^ F.precision := by
  have hpos := ulp_pos (F := F) x
  rw [abs_div, abs_of_pos hpos, div_lt_iff₀ hpos]
  rcases eq_or_ne x 0 with rfl | hne
  · simpa using mul_pos (pow_pos two_pos F.precision) hpos
  calc
    |x| < 2 ^ (Int.log 2 |x| + 1) := lt_two_zpow_log |x|
    _ ≤ 2 ^ ((F.precision : ℤ) + F.exponent x) := by
      apply zpow_le_zpow_right₀ one_le_two
      have hmax : Int.log 2 |x| + 1 - F.precision ≤ F.exponent x := le_max_left _ _
      omega
    _ = 2 ^ F.precision * F.ulp x := by rw [zpow_add₀ two_ne_zero, zpow_natCast, ulp]

theorem round_representable (x : ℚ) : F.Representable (F.round x) := by
  have hbound := abs_lt.mp (abs_div_ulp_lt (F := F) x)
  have hhigh : nearestEven (x / F.ulp x) ≤ 2 ^ F.precision :=
    nearestEven_le (by exact_mod_cast hbound.2.le)
  have hlow : -2 ^ F.precision ≤ nearestEven (x / F.ulp x) :=
    le_nearestEven (by exact_mod_cast hbound.1.le)
  rcases lt_or_eq_of_le (abs_le.mpr ⟨hlow, hhigh⟩) with hlt | heq
  · exact ⟨_, _, minExponent_le x, hlt, rfl⟩
  · -- The significand has overflowed to a power of two.
    have hpower : F.Representable (2 ^ ((F.precision : ℤ) + F.exponent x)) :=
      representable_zpow (by have := minExponent_le (F := F) x; omega)
    have habs : |F.round x| = 2 ^ ((F.precision : ℤ) + F.exponent x) := by
      rw [round, abs_mul, abs_of_pos (ulp_pos x), zpow_add₀ two_ne_zero, zpow_natCast, ulp]
      congr 1
      exact_mod_cast heq
    obtain ⟨m, e, hmin, hm, hvalue⟩ := hpower
    rcases abs_choice (F.round x) with hsame | hneg
    · exact ⟨m, e, hmin, hm, by rw [← hvalue, ← habs, hsame]⟩
    · refine ⟨-m, e, hmin, by rwa [abs_neg], ?_⟩
      have hround : F.round x = -|F.round x| := by rw [hneg, neg_neg]
      rw [hround, habs, hvalue]
      push_cast
      ring

theorem round_le_of_nonneg (hr : F.Representable r) (hx : 0 ≤ x) (hle : x ≤ r) :
    F.round x ≤ r := by
  rcases hx.eq_or_lt with rfl | hpos
  · simpa using hle
  have hulp := ulp_pos (F := F) x
  obtain ⟨k, hk⟩ := hr.multiple (exponent_mono hpos hle)
  have hdiv : x / F.ulp x ≤ k := by
    rw [div_le_iff₀ hulp]
    exact hk ▸ hle
  calc
    F.round x ≤ k * F.ulp x :=
      mul_le_mul_of_nonneg_right (by exact_mod_cast nearestEven_le hdiv) hulp.le
    _ = r := hk.symm

theorem round_nonneg (hx : 0 ≤ x) : 0 ≤ F.round x := by
  have hdiv : ((0 : ℤ) : ℚ) ≤ x / F.ulp x := by
    simpa using div_nonneg hx (ulp_pos (F := F) x).le
  have hnearest : 0 ≤ nearestEven (x / F.ulp x) := le_nearestEven hdiv
  exact mul_nonneg (by exact_mod_cast hnearest) (ulp_pos x).le

/-- Above the smallest exponent, the largest power of two that a number reaches is
on the grid of the number. -/
theorem le_round_two_zpow_log (hpos : 0 < x) : 2 ^ Int.log 2 x ≤ F.round x ∨
    F.exponent x = F.minExponent := by
  by_cases hexp : F.exponent x = F.minExponent
  · exact Or.inr hexp
  left
  have hulp := ulp_pos (F := F) x
  have hlog : F.exponent x = Int.log 2 x + 1 - F.precision := by
    unfold exponent at hexp ⊢
    rw [abs_of_pos hpos] at hexp ⊢
    omega
  have hpower : (2 : ℚ) ^ Int.log 2 x = ((2 ^ (F.precision - 1) : ℤ) : ℚ) * F.ulp x := by
    have hprecision := F.precision_pos
    push_cast
    rw [ulp, hlog, ← zpow_natCast, ← zpow_add₀ two_ne_zero]
    congr 1
    omega
  have hdiv : ((2 ^ (F.precision - 1) : ℤ) : ℚ) ≤ x / F.ulp x := by
    rw [le_div_iff₀ hulp, ← hpower]
    exact two_zpow_log_le hpos
  rw [hpower]
  exact mul_le_mul_of_nonneg_right (by exact_mod_cast le_nearestEven hdiv) hulp.le

theorem round_mono_of_nonneg (hx : 0 ≤ x) (hle : x ≤ y) : F.round x ≤ F.round y := by
  rcases hx.eq_or_lt with rfl | hpos
  · simpa using round_nonneg hle
  have hy := hpos.trans_le hle
  rcases (exponent_mono (F := F) hpos hle).eq_or_lt with hsame | hless
  · have hulp : F.ulp x = F.ulp y := by rw [ulp, ulp, hsame]
    have hdiv : x / F.ulp y ≤ y / F.ulp y := by
      have := ulp_pos (F := F) y
      gcongr
    rw [round, round, hulp]
    exact mul_le_mul_of_nonneg_right (by exact_mod_cast nearestEven_mono hdiv) (ulp_pos y).le
  · -- A power of two lies between the two numbers.
    have hbetween : x ≤ 2 ^ Int.log 2 y := by
      have hlog : Int.log 2 x < Int.log 2 y := by
        unfold exponent at hless
        rw [abs_of_pos hpos, abs_of_pos hy] at hless
        omega
      exact (lt_two_zpow_log x).le.trans (zpow_le_zpow_right₀ one_le_two hlog)
    have hmin : F.exponent y ≠ F.minExponent := by
      have := minExponent_le (F := F) x
      omega
    have hplace : F.minExponent ≤ Int.log 2 y := by
      have hprecision := F.precision_pos
      unfold exponent at hmin
      rw [abs_of_pos hy] at hmin
      omega
    exact (round_le_of_nonneg (representable_zpow hplace) hx hbetween).trans
      ((le_round_two_zpow_log hy).resolve_right hmin)

/-- Rounding is monotone. -/
theorem round_mono (hle : x ≤ y) : F.round x ≤ F.round y := by
  rcases le_total 0 x with hx | hx
  · exact round_mono_of_nonneg hx hle
  · rcases le_total 0 y with hy | hy
    · have hneg : 0 ≤ F.round (-x) := round_nonneg (neg_nonneg.mpr hx)
      rw [round_neg] at hneg
      linarith [round_nonneg (F := F) hy]
    · have hneg := round_mono_of_nonneg (F := F) (neg_nonneg.mpr hy) (neg_le_neg hle)
      rw [round_neg, round_neg] at hneg
      linarith

theorem Representable.round_le (hr : F.Representable r) (hle : x ≤ r) : F.round x ≤ r :=
  hr.round_eq ▸ round_mono hle

theorem ulp_le_of_lt {k : ℤ} (hx : 0 ≤ x) (hlt : x < 2 ^ k)
    (hk : F.minExponent + F.precision ≤ k) : F.ulp x ≤ 2 ^ (k - F.precision) ∨ x = 0 := by
  rcases hx.eq_or_lt with rfl | hpos
  · exact Or.inr rfl
  left
  apply zpow_le_zpow_right₀ one_le_two
  have hlog := log_lt hpos hlt
  unfold exponent
  rw [abs_of_pos hpos]
  omega

/-- The error of the rounding of a number below a power of two. -/
theorem abs_round_sub_le_of_lt {k : ℤ} (hx : 0 ≤ x) (hlt : x < 2 ^ k)
    (hk : F.minExponent + F.precision ≤ k) :
    |F.round x - x| ≤ 2 ^ (k - F.precision) / 2 := by
  rcases ulp_le_of_lt (F := F) hx hlt hk with hulp | rfl
  · exact (abs_round_sub_le x).trans (by linarith)
  · rw [round_zero, sub_self, abs_zero]
    exact div_nonneg (zpow_nonneg zero_le_two _) zero_le_two

/-- The largest representable number below a power of two. -/
theorem Representable.le_of_lt_zpow (hr : F.Representable r) {k : ℤ} (hlt : r < 2 ^ k) :
    r ≤ 2 ^ k - 2 ^ (k - F.precision) := by
  have hsplit : (2 : ℚ) ^ k = 2 ^ (k - 1) + 2 ^ (k - 1) := by
    rw [← mul_two, ← zpow_add_one₀ two_ne_zero, sub_add_cancel]
  have hplace : (2 : ℚ) ^ (k - F.precision) ≤ 2 ^ (k - 1) := by
    apply zpow_le_zpow_right₀ one_le_two
    have := F.precision_pos
    omega
  rcases lt_or_ge r (2 ^ (k - 1)) with hsmall | hlarge
  · linarith
  · have hpos : 0 < r := lt_of_lt_of_le (zpow_pos two_pos _) hlarge
    have hexponent : k - F.precision ≤ F.exponent r := by
      have hlog : k - 1 ≤ Int.log 2 r :=
        (Int.zpow_le_iff_le_log one_lt_two hpos).mp (by exact_mod_cast hlarge)
      unfold exponent
      rw [abs_of_pos hpos]
      omega
    obtain ⟨m, rfl⟩ := hr.multiple hexponent
    have hpower : (2 : ℚ) ^ k = ((2 ^ F.precision : ℤ) : ℚ) * 2 ^ (k - F.precision) := by
      push_cast
      rw [← zpow_natCast, ← zpow_add₀ two_ne_zero]
      congr 1
      omega
    have hm : m + 1 ≤ 2 ^ F.precision := by
      rw [hpower, mul_lt_mul_iff_left₀ (zpow_pos two_pos _)] at hlt
      exact_mod_cast hlt
    rw [hpower, le_sub_iff_add_le, ← add_one_mul]
    exact mul_le_mul_of_nonneg_right (by exact_mod_cast hm) (zpow_pos two_pos _).le

/-- A representable number is at least as large as the error of every number that
it exceeds by a factor of less than 2^precision, also in the range of underflow. -/
theorem Representable.ulp_le (hr : F.Representable r) (hr_pos : 0 < r) (hx : 0 < x)
    (hle : x ≤ r * 2 ^ F.precision) : F.ulp x / 2 ≤ r := by
  obtain ⟨m, e, he, -, rfl⟩ := hr
  have hpower : (0 : ℚ) < 2 ^ e := zpow_pos two_pos _
  have hm : 1 ≤ m := by exact_mod_cast pos_of_mul_pos_left hr_pos hpower.le
  rw [ulp, exponent, abs_of_pos hx]
  rcases max_choice (Int.log 2 x + 1 - F.precision) F.minExponent with hlog | hmin
  · have hsplit : (2 : ℚ) ^ (Int.log 2 x + 1 - F.precision) / 2 =
        2 ^ Int.log 2 x / 2 ^ F.precision := by
      rw [zpow_sub₀ two_ne_zero, zpow_add_one₀ two_ne_zero, zpow_natCast, div_right_comm,
        mul_div_assoc, div_self two_ne_zero, mul_one]
    rw [hlog, hsplit, div_le_iff₀ (pow_pos two_pos _)]
    exact (two_zpow_log_le hx).trans hle
  · rw [hmin]
    calc (2 : ℚ) ^ F.minExponent / 2 ≤ 2 ^ F.minExponent :=
          half_le_self (zpow_nonneg zero_le_two _)
      _ ≤ 2 ^ e := zpow_le_zpow_right₀ one_le_two he
      _ ≤ m * 2 ^ e := le_mul_of_one_le_left hpower.le (by exact_mod_cast hm)

/-- The relative error of the rounding of a number that does not underflow. -/
theorem abs_round_sub_le_mul (hx : 0 ≤ x) (hnormal : (2 : ℚ) ^ (F.minExponent + F.precision) ≤ x) :
    |F.round x - x| ≤ x / 2 ^ F.precision := by
  have hpos : 0 < x := lt_of_lt_of_le (zpow_pos two_pos _) hnormal
  have hlog : F.minExponent + F.precision ≤ Int.log 2 x :=
    (Int.zpow_le_iff_le_log one_lt_two hpos).mp (by exact_mod_cast hnormal)
  have hlt := lt_two_zpow_log x
  refine (abs_round_sub_le_of_lt (F := F) hx hlt (by omega)).trans ?_
  rw [le_div_iff₀ (pow_pos two_pos _), div_mul_eq_mul_div, ← zpow_natCast,
    ← zpow_add₀ two_ne_zero, show Int.log 2 x + 1 - F.precision + F.precision =
      Int.log 2 x + 1 by omega, zpow_add_one₀ two_ne_zero, mul_div_assoc]
  simpa using two_zpow_log_le hpos

end Format

/-- The integer part of a number, which a conversion to an integer type keeps. -/
def truncate (x : ℚ) : ℤ := if 0 ≤ x then ⌊x⌋ else -⌊-x⌋

theorem truncate_of_nonneg {x : ℚ} (hx : 0 ≤ x) : truncate x = ⌊x⌋ := if_pos hx

section Parts

variable {F : Format} {x : ℚ}

theorem Format.Representable.neg (hx : F.Representable x) : F.Representable (-x) := by
  obtain ⟨m, e, hmin, hm, rfl⟩ := hx
  exact ⟨-m, e, hmin, by rwa [abs_neg], by push_cast; ring⟩

/-- The integer part and the fraction of a number have no more digits than the
number itself. -/
theorem Format.Representable.floor (hF : F.minExponent ≤ 0) (hx : F.Representable x)
    (hpos : 0 ≤ x) : F.Representable ⌊x⌋ ∧ F.Representable (x - ⌊x⌋) := by
  obtain ⟨m, e, hmin, hm, rfl⟩ := hx
  have hm0 : 0 ≤ m := by
    by_contra hneg
    have hlt : (m : ℚ) * 2 ^ e < 0 :=
      mul_neg_of_neg_of_pos (by exact_mod_cast not_le.mp hneg) (zpow_pos two_pos e)
    linarith
  rcases le_total 0 e with he | he
  · have hwhole : (m : ℚ) * 2 ^ e = ((m * 2 ^ e.toNat : ℤ) : ℚ) := by
      push_cast
      rw [← zpow_natCast, Int.toNat_of_nonneg he]
    rw [hwhole, Int.floor_intCast, sub_self, ← hwhole]
    exact ⟨⟨m, e, hmin, hm, rfl⟩, 0, 0, hF, by simp, by simp⟩
  · have hvalue : (m : ℚ) * 2 ^ e = m / ((2 ^ (-e).toNat : ℕ) : ℚ) := by
      push_cast
      rw [← zpow_natCast, Int.toNat_of_nonneg (by omega), zpow_neg, div_inv_eq_mul]
    have hfloor : ⌊(m : ℚ) * 2 ^ e⌋ = m / ((2 ^ (-e).toNat : ℕ) : ℤ) := by
      rw [hvalue, Rat.floor_intCast_div_natCast]
    have hden : (0 : ℤ) < ((2 ^ (-e).toNat : ℕ) : ℤ) := by positivity
    have hquotient := Int.ediv_nonneg hm0 hden.le
    have hsplit := Int.emod_add_mul_ediv m ((2 ^ (-e).toNat : ℕ) : ℤ)
    rw [abs_of_nonneg hm0] at hm
    constructor
    · refine ⟨_, 0, hF, ?_, by rw [hfloor, zpow_zero, mul_one]⟩
      rw [abs_of_nonneg hquotient]
      exact (Int.ediv_le_self _ hm0).trans_lt hm
    · refine ⟨m % ((2 ^ (-e).toNat : ℕ) : ℤ), e, hmin, ?_, ?_⟩
      · rw [abs_of_nonneg (Int.emod_nonneg m hden.ne')]
        linarith [mul_nonneg hden.le hquotient]
      · have hcast : (m : ℚ) = (m % ((2 ^ (-e).toNat : ℕ) : ℤ) : ℤ) +
            ((2 ^ (-e).toNat : ℕ) : ℚ) * (m / ((2 ^ (-e).toNat : ℕ) : ℤ) : ℤ) := by
          exact_mod_cast hsplit.symm
        have hone : ((2 ^ (-e).toNat : ℕ) : ℚ) * 2 ^ e = 1 := by
          push_cast
          rw [← zpow_natCast, Int.toNat_of_nonneg (by omega), ← zpow_add₀ two_ne_zero,
            neg_add_cancel, zpow_zero]
        rw [hfloor, sub_eq_iff_eq_add]
        nth_rewrite 1 [hcast]
        rw [add_mul, mul_right_comm, hone, one_mul]

theorem Format.Representable.truncate (hF : F.minExponent ≤ 0) (hx : F.Representable x) :
    F.Representable (truncate x) ∧ F.Representable (x - truncate x) := by
  unfold Floating.truncate
  split
  next hpos => exact hx.floor hF hpos
  next hneg =>
    obtain ⟨hwhole, hfraction⟩ := hx.neg.floor hF (by linarith)
    push_cast
    refine ⟨hwhole.neg, ?_⟩
    have hswap : x - -(⌊-x⌋ : ℚ) = -(-x - ⌊-x⌋) := by ring
    rw [hswap]
    exact hfraction.neg

end Parts

/-- The format of a `double`. -/
def binary64 : Format where
  precision := 53
  minExponent := -1074
  precision_pos := by decide

/-- A finite `double`. There is no largest one: a result is not replaced by an
infinity. -/
structure Double where
  value : ℚ
  representable : binary64.Representable value

namespace Double

/-- The `double` nearest to a number: the value of a literal, of a converted
integer and of every operation. -/
def nearest (x : ℚ) : Double := ⟨binary64.round x, Format.round_representable x⟩

def mul (a b : Double) : Double := nearest (a.value * b.value)

def div (a b : Double) : Double := nearest (a.value / b.value)

/-- The integer part that `modf` stores. -/
def integral (a : Double) : Double :=
  ⟨truncate a.value, (a.representable.truncate (by decide)).1⟩

/-- The fraction that `modf` returns. -/
def fractional (a : Double) : Double :=
  ⟨a.value - truncate a.value, (a.representable.truncate (by decide)).2⟩

/-- A conversion to an integer type that the integer part fits into. -/
def toInt (a : Double) : ℤ := truncate a.value

@[simp] theorem nearest_value (x : ℚ) : (nearest x).value = binary64.round x := rfl

@[simp] theorem mul_value (a b : Double) :
    (a.mul b).value = binary64.round (a.value * b.value) := rfl

@[simp] theorem div_value (a b : Double) :
    (a.div b).value = binary64.round (a.value / b.value) := rfl

@[simp] theorem integral_value (a : Double) : a.integral.value = truncate a.value := rfl

@[simp] theorem fractional_value (a : Double) :
    a.fractional.value = a.value - truncate a.value := rfl

end Double

end Floating
