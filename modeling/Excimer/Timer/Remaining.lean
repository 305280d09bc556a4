import Excimer.Timer.Kqueue
import Excimer.Timer.Timespec

/-!
The emulation of `timer_gettime` by the kqueue library. It knows the period and
the time at which the timer was started or fired last, and takes their sum for
the time of the next expiration.
-/

namespace Excimer.Timer.Kqueue

/-- The times at which the handler thread has recorded an expiration. -/
def firings (waits : List Wait) : List Timespec :=
  waits.filterMap fun
    | .expired _ now => some now
    | _ => none

/-- What `timer_gettime` reports, in nanoseconds: the time until the next
expiration, and zero for a timer that is not armed any more. -/
def posixRemaining (period initial startedAt : Timespec) (firings : List Timespec)
    (now : Timespec) : Int :=
  match firings.getLast? with
  | none => max 0 (startedAt.nanoseconds + initial.nanoseconds - now.nanoseconds)
  | some last =>
      if period.isZero then 0 else max 0 (last.nanoseconds + period.nanoseconds - now.nanoseconds)

/-- The result of `timerlib_timer_get_time` is the time that POSIX reports, and so
is what `ExcimerTimer::getTime` makes of it. -/
structure Agrees (period initial : Timespec) (expected : Int) (remaining : Timespec) : Prop where
  valid : remaining.Valid
  value : remaining.nanoseconds = expected
  to_ns : ((timespecToNs remaining).toNat : Int) = remaining.nanoseconds
  le_max : ((timespecToNs remaining).toNat : Int) ≤ max initial.nanoseconds period.nanoseconds

/-- The conditions under which the sum of the period and the last known time is
the time of the next expiration and the arithmetic is exact. -/
structure Foreseen (period initial last now : Timespec) (fired : Bool) : Prop where
  /-- No expiration is due, nor has the timer expired for good. -/
  not_due : now.nanoseconds ≤ last.nanoseconds + period.nanoseconds
  /-- Before the first expiration the period has to stand for the initial delay. -/
  first : fired = false → initial = period ∨
    initial.nanoseconds ≤ period.nanoseconds ∧
      now.nanoseconds = last.nanoseconds + period.nanoseconds
  /-- `timerlib_timespec_add` does not carry a sum of exactly one billion. -/
  carried : ¬(period.tvNsec + last.tvNsec = 1000000000 ∧ now.tvNsec = 0)
  fits : last.nanoseconds + period.nanoseconds - now.nanoseconds < 2 ^ 64

section Runs

variable {reconfigured : Bool} {h next final : Handler} {wait : Wait} {waits : List Wait}

theorem step_timer (hstep : h.step reconfigured wait = some next) :
    next.timer = { h.timer with
      lastFiredAt := (firings [wait]).getLast?.getD h.timer.lastFiredAt } := by
  obtain ⟨phase, tail, rfl, -⟩ := step_outcome hstep
  cases wait <;> rfl

/-- The handler thread changes nothing of the timer but the time of the last
expiration. -/
theorem run_timer (hrun : Transition.run (Handler.step reconfigured) h waits = some final) :
    final.timer = { h.timer with
      lastFiredAt := (firings waits).getLast?.getD h.timer.lastFiredAt } := by
  induction waits generalizing h with
  | nil =>
      obtain rfl := Option.some.inj hrun
      rfl
  | cons wait rest ih =>
      obtain ⟨next, hstep, hrest⟩ := Transition.run_cons hrun
      have hsplit : firings (wait :: rest) = firings [wait] ++ firings rest := by
        rw [firings, firings, firings, ← List.filterMap_append, List.singleton_append]
      rw [ih hrest, step_timer hstep, hsplit, List.getLast?_append]
      cases (firings rest).getLast? <;> rfl

end Runs

section Arithmetic

variable {t : TimerlibTimer} {initial now : Timespec} {expected : Int}

/-- What is stored is the difference of the estimate and the current time, up to
a wrap-around of the seconds. -/
theorem getTime_denotes (t : TimerlibTimer) (now : Timespec) :
    (t.getTime now).Denotes
      (t.lastFiredAt.nanoseconds + t.period.nanoseconds - now.nanoseconds) := by
  obtain ⟨⟨k, hsum⟩, -, -⟩ := Timespec.add_denotes t.period t.lastFiredAt
  obtain ⟨⟨l, hdiff⟩, hge, hlt⟩ := Timespec.subtract_denotes (t.period.add t.lastFiredAt) now
  refine ⟨⟨k + l, ?_⟩, hge, hlt⟩
  rw [TimerlibTimer.getTime, hdiff, hsum]
  omega

theorem getTime_nsec (hperiod : t.period.Valid) (hlast : t.lastFiredAt.Valid) (hnow : now.Valid) :
    0 ≤ (t.getTime now).tvNsec ∧ ((t.getTime now).tvNsec < 1000000000 ↔
      ¬(t.period.tvNsec + t.lastFiredAt.tvNsec = 1000000000 ∧ now.tvNsec = 0)) := by
  obtain ⟨hlow, hhigh, hbillion⟩ := Timespec.add_nsec hperiod.normal hlast.normal
  rw [← hbillion]
  exact Timespec.subtract_nsec hlow hhigh hnow.normal

/-- The result agrees with an expected time exactly if the estimate does and
nothing is left uncarried or wraps around. -/
theorem agrees_iff (hperiod : t.period.Valid) (hinitial : initial.Valid)
    (hlast : t.lastFiredAt.Valid) (hnow : now.Valid) (hnonneg : 0 ≤ expected)
    (hmax : expected ≤ max initial.nanoseconds t.period.nanoseconds) :
    Agrees t.period initial expected (t.getTime now) ↔
      t.lastFiredAt.nanoseconds + t.period.nanoseconds - now.nanoseconds = expected ∧
        expected < 2 ^ 64 ∧
        ¬(t.period.tvNsec + t.lastFiredAt.tvNsec = 1000000000 ∧ now.tvNsec = 0) := by
  have hdenotes := getTime_denotes t now
  obtain ⟨hnsec, hcarried⟩ := getTime_nsec hperiod hlast hnow
  have hns := timespecToNs_toNat (t.getTime now)
  have hperiodLow := hperiod.nanoseconds_nonneg
  have hperiodHigh := hperiod.nanoseconds_lt
  have hinitialHigh := hinitial.nanoseconds_lt
  have hlastLow := hlast.nanoseconds_nonneg
  have hlastHigh := hlast.nanoseconds_lt
  have hnowLow := hnow.nanoseconds_nonneg
  have hnowHigh := hnow.nanoseconds_lt
  constructor
  · rintro ⟨hvalid, hvalue, hexact, -⟩
    obtain ⟨⟨k, hk⟩, -, -⟩ := hdenotes
    have hzero : k = 0 := by omega
    subst hzero
    refine ⟨by omega, ?_, hcarried.mp hvalid.nsec_lt⟩
    have hlt := Int.emod_lt_of_pos (t.getTime now).nanoseconds (show (0 : Int) < 2 ^ 64 by decide)
    omega
  · rintro ⟨hestimate, hfits, hcarry⟩
    have hbillion := hcarried.mpr hcarry
    have hvalue : (t.getTime now).nanoseconds = expected := by
      rw [← hestimate]
      exact hdenotes.exact ⟨hnsec, by omega⟩ (by omega) (by omega)
    have hexact : ((timespecToNs (t.getTime now)).toNat : Int) = (t.getTime now).nanoseconds := by
      rw [hns, hvalue]
      exact Int.emod_eq_of_lt hnonneg hfits
    have hsec : 0 ≤ (t.getTime now).tvSec := by
      unfold Timespec.nanoseconds at hvalue
      omega
    exact ⟨⟨hsec, hdenotes.sec_lt, hnsec, hbillion⟩, hvalue, hexact, by omega⟩

end Arithmetic

section Estimate

variable {period initial startedAt now : Timespec} {fired : List Timespec}

theorem posixRemaining_bounds (hperiod : period.Valid) (hinitial : initial.Valid)
    (hpast : (fired.getLast?.getD startedAt).nanoseconds ≤ now.nanoseconds) :
    0 ≤ posixRemaining period initial startedAt fired now ∧
      posixRemaining period initial startedAt fired now ≤
        max initial.nanoseconds period.nanoseconds := by
  have hperiodLow := hperiod.nanoseconds_nonneg
  have hinitialLow := hinitial.nanoseconds_nonneg
  unfold posixRemaining
  cases hfired : fired.getLast? with
  | none =>
      rw [hfired, Option.getD_none] at hpast
      simp only
      omega
  | some last =>
      rw [hfired, Option.getD_some] at hpast
      simp only
      split <;> omega

/-- The estimate is right exactly under the conditions of `Foreseen`. -/
theorem foreseen_iff (hperiod : period.Valid) (hinitial : initial.Valid)
    (hpast : (fired.getLast?.getD startedAt).nanoseconds ≤ now.nanoseconds) :
    ((fired.getLast?.getD startedAt).nanoseconds + period.nanoseconds - now.nanoseconds =
        posixRemaining period initial startedAt fired now ∧
      posixRemaining period initial startedAt fired now < 2 ^ 64 ∧
      ¬(period.tvNsec + (fired.getLast?.getD startedAt).tvNsec = 1000000000 ∧ now.tvNsec = 0)) ↔
    Foreseen period initial (fired.getLast?.getD startedAt) now fired.getLast?.isSome := by
  have hsame : initial = period ↔ initial.nanoseconds = period.nanoseconds := by
    refine ⟨congrArg Timespec.nanoseconds, fun heq => ?_⟩
    exact hinitial.normal.eq_of_congruent hperiod.normal ⟨0, by omega⟩
  unfold posixRemaining
  cases hfired : fired.getLast? with
  | none =>
      rw [hfired, Option.getD_none] at hpast
      simp only [Option.getD_none, Option.isSome_none]
      constructor
      · rintro ⟨hvalue, hfits, hcarried⟩
        exact ⟨by omega, fun _ => by rw [hsame]; omega, hcarried, by omega⟩
      · rintro ⟨hdue, hfirst, hcarried, hfits⟩
        have hinit := hfirst rfl
        rw [hsame] at hinit
        exact ⟨by omega, by omega, hcarried⟩
  | some last =>
      rw [hfired, Option.getD_some] at hpast
      simp only [Option.getD_some, Option.isSome_some]
      have hzero : period.isZero = true → period.nanoseconds = 0 := by
        simp only [Timespec.isZero, Bool.and_eq_true, beq_iff_eq, Timespec.nanoseconds]
        omega
      constructor
      · rintro ⟨hvalue, hfits, hcarried⟩
        refine ⟨?_, by simp, hcarried, by omega⟩
        split at hvalue <;> omega
      · rintro ⟨hdue, -, hcarried, hfits⟩
        refine ⟨?_, ?_, hcarried⟩
        · split
          next hperiodic => have := hzero hperiodic; omega
          next => omega
        · split <;> omega

end Estimate

/-- The time of the last event is known, so it has passed. -/
theorem last_le_now {startedAt now : Timespec} {fired : List Timespec}
    (hclock : (startedAt :: fired ++ [now]).Pairwise
      fun earlier later => earlier.nanoseconds ≤ later.nanoseconds) :
    (fired.getLast?.getD startedAt).nanoseconds ≤ now.nanoseconds := by
  apply (List.pairwise_append.mp hclock).2.2 _ _ now (List.mem_singleton_self now)
  cases hfired : fired.getLast? with
  | none => exact List.mem_cons_self
  | some last => exact List.mem_cons_of_mem _ (List.mem_of_getLast? hfired)

theorem start_fields {t started : TimerlibTimer} {period initial : Timespec} {calls : StartCalls}
    (hstart : t.start period initial calls = (started, true)) :
    started.period = period ∧ started.lastFiredAt = calls.now := by
  unfold TimerlibTimer.start at hstart
  split at hstart
  next => cases hstart
  next =>
    split at hstart
    next =>
      split at hstart
      next => cases hstart
      next =>
        obtain rfl := (Prod.mk.inj hstart).1
        exact ⟨rfl, rfl⟩
    next => cases hstart

/-- `timerlib_timer_get_time` of the kqueue library agrees with POSIX exactly if no
expiration is due, the initial delay equals the period or has passed into it, and
neither the missing carry nor the conversion to nanoseconds spoils the result. -/
theorem remaining_agrees_iff {t started : TimerlibTimer} {period initial now : Timespec}
    {calls : StartCalls} (hstart : t.start period initial calls = (started, true))
    (hperiod : period.Valid) (hinitial : initial.Valid) (hstartedAt : calls.now.Valid)
    {reconfigured : Bool} {waits : List Wait} {h : Handler}
    (hrun : Transition.run (Handler.step reconfigured) (Handler.start started) waits = some h)
    (hfirings : ∀ time ∈ firings waits, time.Valid) (hnow : now.Valid)
    (hclock : (calls.now :: firings waits ++ [now]).Pairwise
      fun earlier later => earlier.nanoseconds ≤ later.nanoseconds) :
    Agrees period initial (posixRemaining period initial calls.now (firings waits) now)
        (h.timer.getTime now) ↔
      Foreseen period initial ((firings waits).getLast?.getD calls.now) now
        (firings waits).getLast?.isSome := by
  obtain ⟨rfl, hcalled⟩ := start_fields hstart
  have htimer := run_timer hrun
  have hpast := last_le_now hclock
  have hlast : ((firings waits).getLast?.getD calls.now).Valid := by
    cases hfired : (firings waits).getLast? with
    | none => exact hstartedAt
    | some last => exact hfirings last (List.mem_of_getLast? hfired)
  have hlastFiredAt : h.timer.lastFiredAt = (firings waits).getLast?.getD calls.now := by
    rw [htimer, ← hcalled]
    rfl
  have hsame : h.timer.period = started.period := by
    rw [htimer]
    rfl
  obtain ⟨hlow, hhigh⟩ := posixRemaining_bounds hperiod hinitial hpast
  rw [← foreseen_iff hperiod hinitial hpast, ← hlastFiredAt, ← hsame]
  rw [← hlastFiredAt] at hlast
  rw [← hsame] at hperiod hlow hhigh
  exact agrees_iff hperiod hinitial hlast hnow hlow hhigh

/-- The calls of a start at 100 s that succeeds. -/
def startAt100 : StartCalls := ⟨some 5, ⟨100, 0⟩, true, some 1⟩

/-- A periodic timer, read one second after its second expiration. -/
theorem remaining_agrees_iff_periodic :
    ∃ h, Transition.run (Handler.step true)
        (Handler.start (TimerlibTimer.start {} ⟨5, 0⟩ ⟨5, 0⟩ startAt100).1)
        [.expired 1 ⟨105, 0⟩, .expired 1 ⟨110, 0⟩] = some h ∧
      h.timer.getTime ⟨111, 0⟩ = ⟨4, 0⟩ ∧
      Agrees ⟨5, 0⟩ ⟨5, 0⟩
        (posixRemaining ⟨5, 0⟩ ⟨5, 0⟩ ⟨100, 0⟩ [⟨105, 0⟩, ⟨110, 0⟩] ⟨111, 0⟩)
        (h.timer.getTime ⟨111, 0⟩) := by
  have hstart : TimerlibTimer.start {} ⟨5, 0⟩ ⟨5, 0⟩ startAt100 =
      ((TimerlibTimer.start {} ⟨5, 0⟩ ⟨5, 0⟩ startAt100).1, true) := rfl
  obtain ⟨h, hrun, hcheck⟩ := Transition.run_check (Handler.step true)
    (Handler.start (TimerlibTimer.start {} ⟨5, 0⟩ ⟨5, 0⟩ startAt100).1)
    [.expired 1 ⟨105, 0⟩, .expired 1 ⟨110, 0⟩]
    (fun h => decide (h.timer.getTime ⟨111, 0⟩ = ⟨4, 0⟩)) (by decide)
  refine ⟨h, hrun, of_decide_eq_true hcheck, ?_⟩
  refine (remaining_agrees_iff hstart ?_ ?_ ?_ hrun ?_ ?_ ?_).mpr ⟨?_, ?_, ?_, ?_⟩ <;> decide

/-- A one-shot timer, read one second after it has fired. -/
theorem fired_oneshot_wraps :
    ∃ h, Transition.run (Handler.step true)
        (Handler.start (TimerlibTimer.start {} ⟨0, 0⟩ ⟨1, 0⟩ startAt100).1)
        [.expired 1 ⟨101, 0⟩] = some h ∧
      h.timer.getTime ⟨102, 0⟩ = ⟨-1, 0⟩ ∧
      timespecToNs (h.timer.getTime ⟨102, 0⟩) = 18446744072709551616 ∧
      ¬Agrees ⟨0, 0⟩ ⟨1, 0⟩
        (posixRemaining ⟨0, 0⟩ ⟨1, 0⟩ ⟨100, 0⟩ [⟨101, 0⟩] ⟨102, 0⟩) (h.timer.getTime ⟨102, 0⟩) := by
  refine ⟨_, rfl, by decide, by decide, ?_⟩
  intro hagrees
  exact absurd hagrees.valid.sec_nonneg (by decide)

end Excimer.Timer.Kqueue
