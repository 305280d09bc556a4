import Excimer.Object.Configuration

/-!
The mode of an `ExcimerTimer`. It is not stored: a timer is periodic if the field
`period` is not zero when it is started. The documentation says that `setInterval`
switches to one-shot mode and `setPeriod` to periodic mode, but neither of them
writes the field of the other.

The arguments are the results of `timerlib_timespec_from_double`, which are zero
for positive numbers of less than a nanosecond.
-/

namespace Excimer.Object

open Timer (Build TimerId Timespec effectiveInitial)

inductive Setter where
  | interval (interval : Timespec)
  | period (period : Timespec)
  deriving DecidableEq, Repr

/-- The calls of the setters since an object was made: the last one, and the
period that was set last. -/
structure Setters where
  last : Option Setter := none
  period : Timespec := ⟨0, 0⟩
  deriving DecidableEq, Repr

def Setters.after (timer : TimerId) (setters : Setters) : Action → Setters
  | .new other _ _ => if other = timer then {} else setters
  | .setInterval other interval =>
      if other = timer then { setters with last := some (.interval interval) } else setters
  | .setPeriod other period _ =>
      if other = timer then ⟨some (.period period), period⟩ else setters
  | _ => setters

def settersOf (timer : TimerId) (actions : List Action) : Setters :=
  actions.foldl (Setters.after timer) {}

/-- The timer was armed by the last start in the mode that the setter is documented
to switch to. -/
def Selected (s : State) (timer : TimerId) (setter : Setter) : Prop :=
  ∃ clock arming, s.kernel timer = some ⟨clock, some arming⟩ ∧ arming.call = s.calls ∧
    match setter with
    | .interval interval => arming.itInterval.isZero = true ∧ arming.itValue = interval
    | .period period => arming.itInterval.isZero = false ∧ arming.itInterval = period

/-- The fields of an `ExcimerTimer` are what the setters wrote. -/
structure Written (setters : Setters) (object : Obj) : Prop where
  period : object.period = setters.period
  last : match setters.last with
    | none => True
    | some (.interval interval) => object.initial = interval
    | some (.period period) => setters.period = period

section Fields

variable {build : Build} {s t : State} {timer : TimerId} {setters : Setters}

theorem Written.same {a b : Obj} (hwritten : Written setters a) (hperiod : b.period = a.period)
    (hinitial : b.initial = a.initial) : Written setters b := by
  refine ⟨hperiod.trans hwritten.period, ?_⟩
  have hlast := hwritten.last
  rwa [← hinitial] at hlast

/-- What the setters have written to an object, if it is an `ExcimerTimer`. -/
def Tracks (setters : Setters) (object : Obj) : Prop :=
  object.kind = .timer → Written setters object

theorem Tracks.settings {a b : Obj} (htracks : Tracks setters a) (hsame : SameSettings a b) :
    Tracks setters b := by
  rw [hsame]
  exact fun hkind => (htracks hkind).same rfl rfl

/-- A write to an object, and what it leaves of the others. -/
theorem setObject_tracks {next : Setters} {other : TimerId} {object : Obj}
    (htracks : Tracks setters (s.objects timer))
    (hself : other = timer → Tracks next object) (hother : other ≠ timer → next = setters) :
    Tracks next ((s.setObject other object).objects timer) := by
  by_cases heq : other = timer
  · subst heq
    rw [State.setObject_self]
    exact hself rfl
  · rw [hother heq]
    simpa [State.setObject, Ne.symm heq] using htracks

theorem new_tracks {other : TimerId} {object : Obj} (htracks : Tracks setters (s.objects timer))
    (hobject : Tracks {} object) :
    Tracks (if other = timer then {} else setters) ((s.new other object).objects timer) := by
  by_cases heq : other = timer
  · subst heq
    simpa [State.new] using hobject
  · simpa [State.new, heq, Ne.symm heq] using htracks

theorem step_tracks {action : Action} (hstep : step build s action = some t)
    (htracks : Tracks setters (s.objects timer)) :
    Tracks (setters.after timer action) (t.objects timer) := by
  cases step_moves hstep with
  | newTimer => exact new_tracks htracks fun _ => ⟨rfl, trivial⟩
  | newProfiler => exact new_tracks htracks fun hkind => by cases hkind
  | @setEventType other =>
      refine setObject_tracks htracks ?_ fun _ => rfl
      rintro rfl hkind
      exact (htracks hkind).same rfl rfl
  | @setInterval other interval =>
      refine setObject_tracks htracks ?_ fun hne => if_neg hne
      rintro rfl hkind
      rw [Setters.after, if_pos rfl]
      exact ⟨(htracks hkind).period, rfl⟩
  | @setPeriod other period random initial =>
      refine setObject_tracks htracks ?_ fun hne => if_neg hne
      rintro rfl -
      rw [Setters.after, if_pos rfl]
      exact ⟨rfl, rfl⟩
  | setCallback =>
      refine setObject_tracks htracks ?_ fun _ => rfl
      rintro rfl hkind
      exact (htracks hkind).same rfl rfl
  | start => exact htracks.settings (start_settings s _ timer _)
  | stop =>
      rw [stopObject_objects]
      exact htracks
  | free =>
      rw [freeObject_objects]
      exact htracks
  | finish => exact htracks.settings (resume_settings _ timer)
  | rejectEventType => exact htracks
  | rejectCallback => exact htracks
  | expire => exact htracks
  | tick => exact htracks
  | delete => exact htracks
  | unlink => exact htracks
  | core => exact htracks

theorem run_tracks {actions : List Action} (htracks : Tracks setters (s.objects timer))
    (hrun : Transition.run (step build) s actions = some t) :
    Tracks (actions.foldl (Setters.after timer) setters) (t.objects timer) := by
  induction actions generalizing s setters with
  | nil =>
      obtain rfl := Option.some.inj hrun
      exact htracks
  | cons action rest ih =>
      obtain ⟨next, hstep, hrest⟩ := Transition.run_cons hrun
      exact ih (step_tracks hstep htracks) hrest

/-- A step in which a start returns calls no setter. -/
theorem startReturns_after {action : Action} {failed : Bool} (other : TimerId)
    (hreturns : startReturns s action t = some (timer, failed)) :
    setters.after other action = setters := by
  unfold startReturns at hreturns
  obtain ⟨-, hreturns⟩ := Option.ite_none_left_eq_some.mp hreturns
  split at hreturns
  · rfl
  · rfl
  · cases hreturns

end Fields

/-- When the setter selects the mode. -/
def Setters.Selects (setters : Setters) : Setter → Prop
  | .interval interval => interval.isZero = false ∧ setters.period.isZero = true
  | .period period => period.isZero = false

/-- What a start arms, by the fields of the object. -/
theorem selected_iff {s : State} {timer : TimerId} {setters : Setters} {setter : Setter}
    (happlied : Applied s timer false) (hwritten : Written setters (s.objects timer))
    (hlast : setters.last = some setter) : Selected s timer setter ↔ setters.Selects setter := by
  obtain ⟨hperiod, hfield⟩ := hwritten
  rw [hlast] at hfield
  obtain ⟨harmed, hstopped⟩ := happlied
  rw [hperiod] at harmed hstopped
  rcases harmed with ⟨hrunning, hkernel⟩ | ⟨hidle, hdisarmed⟩
  · have hsome : ¬(setters.period.isZero = true ∧ (s.objects timer).initial.isZero = true) := by
      simpa [hrunning] using hstopped
    cases setter with
    | interval interval =>
        simp only at hfield
        rw [hfield] at hsome hkernel
        simp only [Selected, Setters.Selects, hkernel, Option.some.injEq, KernelTimer.mk.injEq]
        constructor
        · rintro ⟨clock, arming, ⟨-, rfl⟩, -, hzero, -⟩
          exact ⟨Bool.eq_false_iff.mpr fun hinterval => hsome ⟨hzero, hinterval⟩, hzero⟩
        · rintro ⟨hinterval, hzero⟩
          exact ⟨_, _, ⟨rfl, rfl⟩, rfl, hzero, by simp [effectiveInitial, hinterval]⟩
    | period period =>
        simp only at hfield
        rw [hfield] at hkernel
        simp only [Selected, Setters.Selects, hkernel, Option.some.injEq, KernelTimer.mk.injEq]
        constructor
        · rintro ⟨clock, arming, ⟨-, rfl⟩, -, hnonzero, -⟩
          exact hnonzero
        · intro hnonzero
          exact ⟨_, _, ⟨rfl, rfl⟩, rfl, hnonzero, rfl⟩
  · obtain ⟨hzero, hinitial⟩ : setters.period.isZero = true ∧
        (s.objects timer).initial.isZero = true := by
      simpa [hidle] using hstopped
    refine iff_of_false ?_ ?_
    · rintro ⟨clock, arming, hkernel, -⟩
      cases hdisarmed _ hkernel
    · cases setter with
      | interval interval =>
          simp only at hfield
          rw [hfield] at hinitial
          simp [Setters.Selects, hinitial]
      | period period =>
          simp only at hfield
          rw [hfield] at hzero
          simp [Setters.Selects, hzero]

/-- A start arms the timer in the mode of the last setter exactly if that was
`setPeriod`, or `setInterval` on an object whose period is zero. In either case the
argument must be long enough not to be rounded to zero. -/
theorem mode_selected_iff {build : Build} (hbuild : build = .nonZts ∨ build = .zts)
    {actions : List Action} (hsettime : ∀ action ∈ actions, settimeSucceeds action = true)
    {s : State} (hrun : Transition.run (step build) State.initial actions = some s)
    {action : Action} (hallowed : settimeSucceeds action = true) {next : State}
    (hstep : step build s action = some next) {timer : TimerId}
    (hreturns : startReturns s action next = some (timer, false))
    (hkind : (next.objects timer).kind = .timer) {setter : Setter}
    (hlast : (settersOf timer actions).last = some setter) :
    Selected next timer setter ↔ (settersOf timer actions).Selects setter := by
  obtain ⟨P, htidy⟩ := exists_tidy hbuild
  have hinv := run_inv htidy hrun
  have hconf := run_configured htidy hsettime hrun
  have htracks : Tracks (settersOf timer actions) (s.objects timer) :=
    run_tracks (fun _ => ⟨rfl, trivial⟩) hrun
  have hnext := step_tracks hstep htracks
  rw [startReturns_after timer hreturns] at hnext
  exact selected_iff (hconf.applied htidy hinv hallowed hstep hreturns) (hnext hkind) hlast

/-- A delayed periodic timer. -/
def delayedPeriodic : List Action :=
  [.new 5 .timer ⟨0, 0⟩, .setInterval 5 ⟨0, 250000000⟩, .setPeriod 5 ⟨0, 500000000⟩ ⟨0, 0⟩]

theorem mode_selected_iff_delayedPeriodic :
    ∃ s next, Transition.run (step .nonZts) State.initial delayedPeriodic = some s ∧
      step .nonZts s (.start 5 {}) = some next ∧ Selected next 5 (.period ⟨0, 500000000⟩) := by
  obtain ⟨next, hnext, hcheck⟩ := Transition.run_check (step .nonZts) State.initial
    (delayedPeriodic ++ [.start 5 {}])
    (fun next => next.pending.isNone && decide ((next.objects 5).kind = .timer)) (by decide)
  rw [Bool.and_eq_true, Option.isNone_iff_eq_none] at hcheck
  obtain ⟨s, hrun, hstep⟩ := Transition.run_last hnext
  have hreturns : startReturns s (.start 5 {}) next = some (5, false) := by
    simp [startReturns, hcheck.1]
  exact ⟨s, next, hrun, hstep, (mode_selected_iff (Or.inl rfl)
    (by decide : ∀ action ∈ delayedPeriodic, _) hrun rfl hstep hreturns
    (of_decide_eq_true hcheck.2) rfl).mpr rfl⟩

/-- A periodic timer is to be used once more, for a single event. -/
def backToOneShot : List Action :=
  [.new 5 .timer ⟨0, 0⟩, .setPeriod 5 ⟨1, 0⟩ ⟨0, 0⟩, .start 5 {}, .stop 5 true,
    .setInterval 5 ⟨2, 0⟩, .start 5 {}]

/-- It is armed with the old period, so it goes on expiring every second. -/
theorem backToOneShot_stays_periodic :
    ∃ s, Transition.run (step .nonZts) State.initial backToOneShot = some s ∧
      (settersOf 5 backToOneShot).last = some (.interval ⟨2, 0⟩) ∧
      s.kernel 5 = some ⟨.real, some ⟨2, ⟨1, 0⟩, ⟨2, 0⟩⟩⟩ ∧ ¬Selected s 5 (.interval ⟨2, 0⟩) := by
  obtain ⟨s, hrun, hcheck⟩ := Transition.run_check (step .nonZts) State.initial backToOneShot
    (fun s => decide (s.kernel 5 = some ⟨.real, some ⟨2, ⟨1, 0⟩, ⟨2, 0⟩⟩⟩)) (by decide)
  have hkernel := of_decide_eq_true hcheck
  refine ⟨s, hrun, by decide, hkernel, ?_⟩
  rintro ⟨clock, arming, harmed, -, hzero, -⟩
  rw [hkernel] at harmed
  simp only [Option.some.injEq, KernelTimer.mk.injEq] at harmed
  rw [← harmed.2] at hzero
  cases hzero

end Excimer.Object
