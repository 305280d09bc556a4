import Excimer.Timer.Timespec

/-!
How exact the arithmetic of `timerlib_common.c` is. A sum and a difference stand
for the right length whenever the seconds do not overflow. The difference is
normalised as well. The sum is not if the nanoseconds add up to exactly one
billion, because the carry is decided by `>` where `timerlib_timespec_from_double`
has `>=`.
-/

namespace Excimer.Timer

/-- The number is a value of the type `time_t`. -/
def FitsTimeT (value : Int) : Prop := -2 ^ 63 ≤ value ∧ value < 2 ^ 63

instance (value : Int) : Decidable (FitsTimeT value) := inferInstanceAs (Decidable (_ ∧ _))

theorem timeT_of_fits {value : Int} (hfits : FitsTimeT value) : timeT value = value := by
  obtain ⟨k, hk, hlow, hhigh⟩ := timeT_spec value
  obtain ⟨hge, hlt⟩ := hfits
  omega

namespace Timespec

/-- No assignment to `tv_sec` in `timerlib_timespec_add` overflows. -/
def AddFits (a b : Timespec) : Prop :=
  FitsTimeT (a.tvSec + b.tvSec) ∧
    (a.tvNsec + b.tvNsec > 1000000000 → FitsTimeT (a.tvSec + b.tvSec + 1))

/-- No assignment to `tv_sec` in `timerlib_timespec_subtract` overflows. -/
def SubtractFits (a b : Timespec) : Prop :=
  FitsTimeT (a.tvSec - b.tvSec) ∧
    (a.tvNsec < b.tvNsec → FitsTimeT (a.tvSec - b.tvSec - 1))

instance (a b : Timespec) : Decidable (AddFits a b) := inferInstanceAs (Decidable (_ ∧ _))

instance (a b : Timespec) : Decidable (SubtractFits a b) := inferInstanceAs (Decidable (_ ∧ _))

variable {a b : Timespec}

theorem add_exact (hfits : AddFits a b) :
    (a.add b).nanoseconds = a.nanoseconds + b.nanoseconds := by
  obtain ⟨hsum, hcarry⟩ := hfits
  unfold add
  rw [timeT_of_fits hsum]
  split
  next hmore =>
    rw [timeT_of_fits (hcarry hmore)]
    simp only [nanoseconds]
    omega
  next =>
    simp only [nanoseconds]
    omega

theorem subtract_exact (hfits : SubtractFits a b) :
    (a.subtract b).nanoseconds = a.nanoseconds - b.nanoseconds := by
  obtain ⟨hdifference, hborrow⟩ := hfits
  unfold subtract
  rw [timeT_of_fits hdifference]
  split
  next hless =>
    rw [timeT_of_fits (hborrow hless)]
    simp only [nanoseconds]
    omega
  next =>
    simp only [nanoseconds]
    omega

theorem add_normal_iff (ha : a.Normal) (hb : b.Normal) :
    (a.add b).Normal ↔ a.tvNsec + b.tvNsec ≠ 1000000000 := by
  obtain ⟨-, hge, hlt⟩ := add_denotes a b
  obtain ⟨hnonneg, hle, hbillion⟩ := add_nsec ha hb
  rw [Ne, ← hbillion]
  constructor
  · rintro ⟨-, -, -, hnormal⟩
    omega
  · intro hne
    exact ⟨hge, hlt, hnonneg, by omega⟩

theorem subtract_normal (ha : a.Normal) (hb : b.Normal) : (a.subtract b).Normal := by
  obtain ⟨-, hge, hlt⟩ := subtract_denotes a b
  have hbillion := ha.nsec_lt
  obtain ⟨hnonneg, hcarried⟩ := subtract_nsec ha.nsec_nonneg (by omega) hb
  exact ⟨hge, hlt, hnonneg, hcarried.mpr (by omega)⟩

/-- Subtraction undoes addition even where the sum is not normalised. -/
theorem add_subtract_cancel (ha : a.Normal) (hb : b.Normal) : (a.add b).subtract b = a := by
  obtain ⟨⟨k, hsum⟩, -, -⟩ := add_denotes a b
  obtain ⟨⟨l, hdifference⟩, hge, hlt⟩ := subtract_denotes (a.add b) b
  obtain ⟨hnonneg, hle, hbillion⟩ := add_nsec ha hb
  obtain ⟨hlow, hcarried⟩ := subtract_nsec hnonneg hle hb
  have hnsec : ((a.add b).subtract b).tvNsec < 1000000000 := by
    rw [hcarried, hbillion]
    have hlimit := ha.nsec_lt
    omega
  have hnormal : ((a.add b).subtract b).Normal := ⟨hge, hlt, hlow, hnsec⟩
  refine hnormal.eq_of_congruent ha ⟨k + l, ?_⟩
  rw [hdifference, hsum]
  omega

/-- The conversion to nanoseconds forgets how a number is split and how often the
seconds have wrapped around. -/
theorem timespecToNs_add (a b : Timespec) :
    timespecToNs (a.add b) = timespecToNs a + timespecToNs b := by
  obtain ⟨⟨k, hsum⟩, -, -⟩ := add_denotes a b
  have hleft := timespecToNs_toNat (a.add b)
  have ha := timespecToNs_toNat a
  have hb := timespecToNs_toNat b
  apply UInt64.toNat_inj.mp
  rw [UInt64.toNat_add]
  omega

theorem timespecToNs_subtract (a b : Timespec) :
    timespecToNs (a.subtract b) = timespecToNs a - timespecToNs b := by
  obtain ⟨⟨k, hdifference⟩, -, -⟩ := subtract_denotes a b
  have hleft := timespecToNs_toNat (a.subtract b)
  have ha := timespecToNs_toNat a
  have hb := timespecToNs_toNat b
  apply UInt64.toNat_inj.mp
  rw [UInt64.toNat_sub]
  omega

/-- What the arithmetic is for: as long as the seconds do not overflow, its results
are normalised and exact, and the conversion to nanoseconds respects it. -/
structure ArithmeticExact (a b : Timespec) : Prop where
  add_normal : AddFits a b → (a.add b).Normal
  add_length : AddFits a b → (a.add b).nanoseconds = a.nanoseconds + b.nanoseconds
  subtract_normal : SubtractFits a b → (a.subtract b).Normal
  subtract_length : SubtractFits a b →
    (a.subtract b).nanoseconds = a.nanoseconds - b.nanoseconds
  undone : AddFits a b → (a.add b).subtract b = a
  add_ns : AddFits a b → timespecToNs (a.add b) = timespecToNs a + timespecToNs b
  subtract_ns : SubtractFits a b →
    timespecToNs (a.subtract b) = timespecToNs a - timespecToNs b

/-- The arithmetic is exact and stays normalised exactly if the nanoseconds of a sum
do not add up to one billion. -/
theorem arithmetic_exact_iff (ha : a.Normal) (hb : b.Normal) :
    ArithmeticExact a b ↔ (AddFits a b → a.tvNsec + b.tvNsec ≠ 1000000000) := by
  constructor
  · intro hexact hfits
    exact (add_normal_iff ha hb).mp (hexact.add_normal hfits)
  · intro hcarried
    exact {
      add_normal := fun hfits => (add_normal_iff ha hb).mpr (hcarried hfits)
      add_length := add_exact
      subtract_normal := fun _ => subtract_normal ha hb
      subtract_length := subtract_exact
      undone := fun _ => add_subtract_cancel ha hb
      add_ns := fun _ => timespecToNs_add a b
      subtract_ns := fun _ => timespecToNs_subtract a b }

/-- A sum with a carry and a negative difference. -/
theorem arithmetic_exact_iff_carry :
    add ⟨-2, 700000000⟩ ⟨1, 400000000⟩ = ⟨0, 100000000⟩ ∧
      subtract ⟨-2, 700000000⟩ ⟨1, 400000000⟩ = ⟨-3, 300000000⟩ ∧
      ArithmeticExact ⟨-2, 700000000⟩ ⟨1, 400000000⟩ := by
  refine ⟨by decide, by decide, ?_⟩
  exact (arithmetic_exact_iff ⟨by decide, by decide, by decide, by decide⟩
    ⟨by decide, by decide, by decide, by decide⟩).mpr (by decide)

/-- Two halves of a second. -/
theorem halves_not_carried :
    AddFits ⟨0, 500000000⟩ ⟨0, 500000000⟩ ∧ Normal ⟨0, 500000000⟩ ∧
      add ⟨0, 500000000⟩ ⟨0, 500000000⟩ = ⟨0, 1000000000⟩ ∧
      ¬ArithmeticExact ⟨0, 500000000⟩ ⟨0, 500000000⟩ := by
  have hsum : add ⟨0, 500000000⟩ ⟨0, 500000000⟩ = ⟨0, 1000000000⟩ := by decide
  refine ⟨by decide, ⟨by decide, by decide, by decide, by decide⟩, hsum, fun hexact => ?_⟩
  have hlt := (hexact.add_normal (by decide)).nsec_lt
  rw [hsum] at hlt
  exact absurd hlt (by decide)

end Timespec

end Excimer.Timer
