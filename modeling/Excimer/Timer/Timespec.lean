import Excimer.Timer.System

/-!
The arithmetic of `timerlib_common.c` and `timerlib.h` on `struct timespec`. Seconds are a signed
64-bit `time_t`; a sum or difference that leaves its range is taken to wrap
around.
-/

namespace Excimer.Timer

/-- The value of an expression of type `time_t`. -/
def timeT (value : Int) : Int := value.bmod (2 ^ 64)

namespace Timespec

/-- `timerlib_timespec_add`. The comparison leaves a sum of exactly one billion
nanoseconds as it is. -/
def add (a b : Timespec) : Timespec :=
  if a.tvNsec + b.tvNsec > 1000000000 then
    ⟨timeT (timeT (a.tvSec + b.tvSec) + 1), a.tvNsec + b.tvNsec - 1000000000⟩
  else
    ⟨timeT (a.tvSec + b.tvSec), a.tvNsec + b.tvNsec⟩

/-- `timerlib_timespec_subtract` -/
def subtract (a b : Timespec) : Timespec :=
  if a.tvNsec < b.tvNsec then
    ⟨timeT (timeT (a.tvSec - b.tvSec) - 1), a.tvNsec + (1000000000 - b.tvNsec)⟩
  else
    ⟨timeT (a.tvSec - b.tvSec), a.tvNsec - b.tvNsec⟩

/-- The length of time that a timespec stands for, in nanoseconds. -/
def nanoseconds (ts : Timespec) : Int := ts.tvSec * 1000000000 + ts.tvNsec

/-- A normalised timespec that is not negative. -/
structure Valid (ts : Timespec) : Prop where
  sec_nonneg : 0 ≤ ts.tvSec
  sec_lt : ts.tvSec < 2 ^ 63
  nsec_nonneg : 0 ≤ ts.tvNsec
  nsec_lt : ts.tvNsec < 1000000000

theorem valid_iff {ts : Timespec} :
    ts.Valid ↔ (0 ≤ ts.tvSec ∧ ts.tvSec < 2 ^ 63) ∧ 0 ≤ ts.tvNsec ∧ ts.tvNsec < 1000000000 :=
  ⟨fun h => ⟨⟨h.1, h.2⟩, h.3, h.4⟩, fun h => ⟨h.1.1, h.1.2, h.2.1, h.2.2⟩⟩

instance (ts : Timespec) : Decidable ts.Valid := decidable_of_iff _ valid_iff.symm

/-- A value of `struct timespec` with normalised nanoseconds. It may be negative. -/
structure Normal (ts : Timespec) : Prop where
  sec_ge : -2 ^ 63 ≤ ts.tvSec
  sec_lt : ts.tvSec < 2 ^ 63
  nsec_nonneg : 0 ≤ ts.tvNsec
  nsec_lt : ts.tvNsec < 1000000000

theorem Valid.normal {ts : Timespec} (hts : ts.Valid) : ts.Normal where
  sec_ge := by
    have := hts.sec_nonneg
    omega
  sec_lt := hts.sec_lt
  nsec_nonneg := hts.nsec_nonneg
  nsec_lt := hts.nsec_lt

end Timespec

theorem timeT_spec (value : Int) :
    ∃ k, timeT value = value + k * 2 ^ 64 ∧ -2 ^ 63 ≤ timeT value ∧ timeT value < 2 ^ 63 := by
  refine ⟨-((value + 2 ^ 63) / 2 ^ 64), ?_⟩
  unfold timeT
  rw [Int.bmod_def]
  split <;> omega

namespace Timespec

variable {a b : Timespec}

theorem Valid.nanoseconds_nonneg (ha : a.Valid) : 0 ≤ a.nanoseconds := by
  have := ha.sec_nonneg
  have := ha.nsec_nonneg
  unfold nanoseconds
  omega

theorem Valid.nanoseconds_lt (ha : a.Valid) : a.nanoseconds < 2 ^ 63 * 1000000000 := by
  have := ha.sec_lt
  have := ha.nsec_lt
  unfold nanoseconds
  omega

/-- Two normalised timespecs are equal if they have the same length up to a
wrap-around of the seconds. -/
theorem Normal.eq_of_congruent (ha : a.Normal) (hb : b.Normal)
    (hsame : ∃ k, a.nanoseconds = b.nanoseconds + k * (2 ^ 64 * 1000000000)) : a = b := by
  obtain ⟨k, hk⟩ := hsame
  obtain ⟨haSec, haSec', haNsec, haNsec'⟩ := ha
  obtain ⟨hbSec, hbSec', hbNsec, hbNsec'⟩ := hb
  unfold nanoseconds at hk
  have hsec : a.tvSec = b.tvSec := by omega
  have hnsec : a.tvNsec = b.tvNsec := by omega
  exact congr (congrArg Timespec.mk hsec) hnsec

/-- A timespec of a 64-bit `time_t` that stands for a given length, up to a
wrap-around of the seconds. -/
structure Denotes (ts : Timespec) (length : Int) : Prop where
  exact_up_to : ∃ k, ts.nanoseconds = length + k * (2 ^ 64 * 1000000000)
  sec_ge : -2 ^ 63 ≤ ts.tvSec
  sec_lt : ts.tvSec < 2 ^ 63

theorem add_denotes (a b : Timespec) : (a.add b).Denotes (a.nanoseconds + b.nanoseconds) := by
  obtain ⟨k, hk, hlow, hhigh⟩ := timeT_spec (a.tvSec + b.tvSec)
  obtain ⟨l, hl, hlow', hhigh'⟩ := timeT_spec (timeT (a.tvSec + b.tvSec) + 1)
  unfold add
  split
  · exact ⟨⟨k + l, by simp only [nanoseconds]; omega⟩, hlow', hhigh'⟩
  · exact ⟨⟨k, by simp only [nanoseconds]; omega⟩, hlow, hhigh⟩

theorem subtract_denotes (a b : Timespec) :
    (a.subtract b).Denotes (a.nanoseconds - b.nanoseconds) := by
  obtain ⟨k, hk, hlow, hhigh⟩ := timeT_spec (a.tvSec - b.tvSec)
  obtain ⟨l, hl, hlow', hhigh'⟩ := timeT_spec (timeT (a.tvSec - b.tvSec) - 1)
  unfold subtract
  split
  · exact ⟨⟨k + l, by simp only [nanoseconds]; omega⟩, hlow', hhigh'⟩
  · exact ⟨⟨k, by simp only [nanoseconds]; omega⟩, hlow, hhigh⟩

/-- The nanoseconds of a sum may reach one billion, but not exceed it. -/
theorem add_nsec (ha : a.Normal) (hb : b.Normal) :
    0 ≤ (a.add b).tvNsec ∧ (a.add b).tvNsec ≤ 1000000000 ∧
      ((a.add b).tvNsec = 1000000000 ↔ a.tvNsec + b.tvNsec = 1000000000) := by
  obtain ⟨-, -, ha₁, ha₂⟩ := ha
  obtain ⟨-, -, hb₁, hb₂⟩ := hb
  unfold add
  split
  · refine ⟨?_, ?_, ?_⟩ <;> simp only <;> omega
  · exact ⟨by simp only; omega, by simp only; omega, Iff.rfl⟩

theorem subtract_nsec (hlow : 0 ≤ a.tvNsec) (hhigh : a.tvNsec ≤ 1000000000) (hb : b.Normal) :
    0 ≤ (a.subtract b).tvNsec ∧
      ((a.subtract b).tvNsec < 1000000000 ↔ ¬(a.tvNsec = 1000000000 ∧ b.tvNsec = 0)) := by
  obtain ⟨-, -, hb₁, hb₂⟩ := hb
  unfold subtract
  split <;> simp only <;> omega

/-- What a short length denotes is exact. -/
theorem Denotes.exact {ts : Timespec} {length : Int} (hts : ts.Denotes length)
    (hnsec : 0 ≤ ts.tvNsec ∧ ts.tvNsec ≤ 1000000000)
    (hlow : -2 ^ 63 * 1000000000 < length) (hhigh : length < 2 ^ 63 * 1000000000) :
    ts.nanoseconds = length := by
  obtain ⟨⟨k, hk⟩, hge, hlt⟩ := hts
  have hsum : ts.nanoseconds = ts.tvSec * 1000000000 + ts.tvNsec := rfl
  omega

end Timespec

/-- `timerlib_timespec_to_ns` -/
def timespecToNs (ts : Timespec) : UInt64 :=
  UInt64.ofInt ts.tvNsec + UInt64.ofInt ts.tvSec * 1000000000

theorem ofInt_toNat (value : Int) : ((UInt64.ofInt value).toNat : Int) = value % 2 ^ 64 := by
  have hlt : value % 2 ^ 64 < 2 ^ 64 := Int.emod_lt_of_pos value (by decide)
  have hge : 0 ≤ value % 2 ^ 64 := Int.emod_nonneg value (by decide)
  simp only [UInt64.ofInt, UInt64.toNat_ofNat']
  omega

/-- The conversion is exact up to a wrap-around. -/
theorem timespecToNs_toNat (ts : Timespec) :
    ((timespecToNs ts).toNat : Int) = ts.nanoseconds % 2 ^ 64 := by
  have hsec := ofInt_toNat ts.tvSec
  have hnsec := ofInt_toNat ts.tvNsec
  have hbillion : (1000000000 : UInt64).toNat = 1000000000 := rfl
  rw [timespecToNs, UInt64.toNat_add, UInt64.toNat_mul, hbillion, Timespec.nanoseconds]
  omega

end Excimer.Timer
