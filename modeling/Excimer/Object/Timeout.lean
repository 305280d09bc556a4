import Excimer.Lib.Transition
import Excimer.Object.Basic

/-!
`excimer_set_timeout`, the abbreviation for creating, configuring and starting
an `ExcimerTimer`. The function does not return after it has released the new
object because of a callback that cannot be called: it goes on to write the
interval to the object and to start it.
-/

namespace Excimer.Object

open Timer (Build TimerId Timespec)

def Value.isCallable : Value → Bool
  | .callable _ => true
  | _ => false

variable (build : Build)

/-- `excimer_set_timeout` with the address of the new object and the outcome of
its start, and with the object that is returned, if any. The reference in
`return_value` is the only one, so that dropping it frees the object. -/
def excimerSetTimeout (s : State) (timer : TimerId) (value : Value) (initial : Timespec)
    (outcome : Outcome) : State × Option TimerId :=
  let s := s.new timer timerNew
  let (s, success) := s.excimerTimerSetCallback timer value
  let (s, returnValue) :=
    if success then (s, some timer) else (s.freeObject build timer outcome.halt, none)
  let s := s.setInterval timer initial
  (s.excimerTimerStart build timer outcome, returnValue)

/-- `timers_active`, the pending lists, the handler threads and the kernel
timers are the same. -/
structure SameSubsystem (s next : State) : Prop where
  tls : next.core.tls = s.core.tls
  links : ∀ timer, (next.core.timers timer).pendingNext = (s.core.timers timer).pendingNext ∧
    (next.core.timers timer).pendingPrev = (s.core.timers timer).pendingPrev
  handlers : next.core.handlers = s.core.handlers
  kernel : next.kernel = s.kernel

/-- The documented behaviour: nothing happens for a callback that cannot be
called, and otherwise the four calls that the function abbreviates are made. -/
structure Atomic (s : State) (timer : TimerId) (value : Value) (initial : Timespec)
    (outcome : Outcome) : Prop where
  rejected : value.isCallable = false →
    (excimerSetTimeout build s timer value initial outcome).2 = none ∧
      SameSubsystem s (excimerSetTimeout build s timer value initial outcome).1 ∧
      (excimerSetTimeout build s timer value initial outcome).1.dangling = s.dangling
  started : value.isCallable = true →
    (excimerSetTimeout build s timer value initial outcome).2 = some timer ∧
      Transition.run (step build) s [.new timer .timer ⟨0, 0⟩, .setCallback timer value,
        .setInterval timer initial, .start timer outcome] =
          some (excimerSetTimeout build s timer value initial outcome).1

variable {build} {s : State} {timer : TimerId}

theorem ready_new (s : State) (timer : TimerId) (object : Obj) :
    (s.new timer object).ready timer = s.core.runsPhp 0 := by
  have hmem : timer ∈ (s.new timer object).live := List.mem_cons_self
  simp only [State.ready, hmem, decide_true, Bool.and_true]
  rfl

theorem ready_setObject (s : State) (timer other : TimerId) (object : Obj) :
    (s.setObject timer object).ready other = s.ready other := by
  simp [State.ready]

/-- The method `start` of an `ExcimerTimer` that is not running. -/
theorem start_stopped (hkind : (s.objects timer).kind = .timer)
    (hstopped : (s.core.timers timer).isRunning = false) (outcome : Outcome) :
    s.start build timer outcome = s.excimerTimerStart build timer outcome := by
  have hsame : s.stopRunning timer outcome.stop = s := by
    simp [State.stopRunning, hstopped]
  simp only [State.start, hsame, hkind]

/-- The calls that the function abbreviates can be made one after the other. -/
theorem setTimeout_started (hphp : s.core.runsPhp 0 = true)
    (haddress : 0 < timer ∧ timer < 2 ^ 64) (hfresh : timer ∉ s.live) (function : Nat)
    (initial : Timespec) (outcome : Outcome) :
    Transition.run (step build) s [.new timer .timer ⟨0, 0⟩,
        .setCallback timer (.callable function), .setInterval timer initial,
        .start timer outcome] =
      some (excimerSetTimeout build s timer (.callable function) initial outcome).1 := by
  set created := s.new timer timerNew with hcreated
  set called := created.setCallback timer (.callable function) with hcalled
  set timed := called.setInterval timer initial with htimed
  have hready : created.ready timer = true := (ready_new s timer timerNew).trans hphp
  have hready' : called.ready timer = true := (ready_setObject ..).trans hready
  have hready'' : timed.ready timer = true := (ready_setObject ..).trans hready'
  have hkind : (created.objects timer).kind = .timer := by simp [hcreated, State.new, timerNew]
  have hkind' : (called.objects timer).kind = .timer := by
    simp [hcalled, State.setCallback, State.excimerTimerSetCallback, hkind]
  have hkind'' : (timed.objects timer).kind = .timer := by
    simp [htimed, State.setInterval, hkind']
  have hstopped : (timed.core.timers timer).isRunning = false := by
    simp [htimed, hcalled, hcreated, State.setInterval, State.setCallback,
      State.excimerTimerSetCallback, State.new, Timer.State.setTimer]
  have hnew : step build s (.new timer .timer ⟨0, 0⟩) = some created := by
    simp only [step]
    rw [if_pos ⟨hphp, haddress.1, haddress.2, hfresh⟩]
  have hset : step build created (.setCallback timer (.callable function)) = some called := by
    simp [step, hready, hkind, hcalled]
  have hinterval : step build called (.setInterval timer initial) = some timed := by
    simp [step, hready', hkind', htimed]
  have hstart : step build timed (.start timer outcome) =
      some (timed.excimerTimerStart build timer outcome) := by
    simp [step, hready'', start_stopped hkind'' hstopped]
  simp only [Transition.run, hnew, hset, hinterval, hstart, Option.bind_some]
  rfl

theorem touch_dangling (s : State) (timer : TimerId) :
    s.dangling.length ≤ (s.touch timer).dangling.length := by
  unfold State.touch
  split
  · exact Nat.le_refl _
  · exact Nat.le_succ _

theorem startTimer_dangling (s : State) (timer : TimerId) (ok : Bool) :
    (s.startTimer timer ok).dangling = s.dangling := by
  unfold State.startTimer
  dsimp only
  split <;> rfl

theorem reinit_dangling (kind : Kind) (s : State) (timer : TimerId) (outcome : Outcome) :
    s.dangling.length ≤ (s.reinit build kind timer outcome).dangling.length := by
  unfold State.reinit
  dsimp only
  split
  · rw [startTimer_dangling]
    exact touch_dangling (s.initTimer build kind timer outcome.init) timer
  · exact Nat.le_refl _

/-- A start does not forget an access to a released object. -/
theorem startObject_dangling (kind : Kind) (s : State) (timer : TimerId) (outcome : Outcome) :
    s.dangling.length ≤ (s.startObject build kind timer outcome).dangling.length := by
  have htouch : s.dangling.length ≤ (s.beginStart timer).dangling.length :=
    touch_dangling s timer
  unfold State.startObject
  dsimp only
  split
  · split
    · unfold State.destroyTimer
      dsimp only
      split <;> exact htouch
    · exact Nat.le_trans htouch (reinit_dangling kind (s.beginStart timer) timer outcome)
  · rw [startTimer_dangling]
    exact htouch

theorem setTimeout_dangling (hfresh : timer ∉ s.live) {value : Value}
    (hvalue : value.isCallable = false) (initial : Timespec) (outcome : Outcome) :
    s.dangling.length <
      (excimerSetTimeout build s timer value initial outcome).1.dangling.length := by
  have hrejected : ∃ message, (s.new timer timerNew).excimerTimerSetCallback timer value =
      ((s.new timer timerNew).warn message, false) := by
    cases value with
    | null => exact ⟨_, rfl⟩
    | callable function => cases hvalue
    | other error => exact ⟨_, rfl⟩
  obtain ⟨message, hrejected⟩ := hrejected
  set warned := (s.new timer timerNew).warn message with hwarned
  have hfreed : warned.freeObject build timer outcome.halt = warned.release timer := by
    have hinvalid : (warned.core.timers timer).isValid = false := by
      simp [hwarned, State.warn, State.new, Timer.State.record, Timer.State.setTimer]
    simp [State.freeObject, hinvalid]
  have hlive : (warned.release timer).live = s.live := List.erase_cons_head ..
  have hwritten : ((warned.release timer).setInterval timer initial).dangling =
      timer :: s.dangling := by
    simp only [State.setInterval, State.setObject, State.touch, hlive, hfresh, if_false]
    rfl
  set written := (warned.release timer).setInterval timer initial
  have hstart : written.dangling.length ≤
      (written.startObject build .timer timer outcome).dangling.length :=
    startObject_dangling .timer written timer outcome
  rw [hwritten] at hstart
  unfold excimerSetTimeout
  dsimp only
  rw [hrejected]
  dsimp only
  rw [if_neg (by simp), hfreed]
  exact hstart

/-- `excimer_set_timeout` does what its documentation says exactly for the
callbacks that can be called. -/
theorem setTimeout_atomic_iff {build : Build} {s : State} {timer : TimerId}
    (hphp : s.core.runsPhp 0 = true) (haddress : 0 < timer ∧ timer < 2 ^ 64)
    (hfresh : timer ∉ s.live) (value : Value) (initial : Timespec) (outcome : Outcome) :
    Atomic build s timer value initial outcome ↔ value.isCallable = true := by
  constructor
  · intro hatomic
    by_contra hvalue
    have hrejected : value.isCallable = false := Bool.eq_false_iff.mpr hvalue
    have hlonger : s.dangling.length <
        (excimerSetTimeout build s timer value initial outcome).1.dangling.length :=
      setTimeout_dangling hfresh hrejected initial outcome
    rw [(hatomic.rejected hrejected).2.2] at hlonger
    exact Nat.lt_irrefl _ hlonger
  · intro hvalue
    cases value with
    | null => cases hvalue
    | other error => cases hvalue
    | callable function =>
        refine ⟨?_, fun _ => ⟨rfl, ?_⟩⟩
        · intro hrejected
          cases hrejected
        · exact setTimeout_started hphp haddress hfresh function initial outcome

theorem setTimeout_atomic_iff_oneSecond :
    Atomic .nonZts State.initial 5 (.callable 1) ⟨1, 0⟩ {} :=
  (setTimeout_atomic_iff rfl (by decide) (by decide) (.callable 1) ⟨1, 0⟩ {}).mpr rfl

/-- A callback that cannot be called: null is returned and the object has been
freed, but its memory is written to and a timer is started in it, with a handler
thread and an armed kernel timer that no object owns. -/
theorem setTimeout_leaks :
    let result := excimerSetTimeout .nonZts State.initial 5 (.other "function not found") ⟨1, 0⟩ {}
    result.2 = none ∧ result.1.live = [] ∧ result.1.dangling = [5, 5, 5] ∧
      (result.1.core.tls (.php 0)).timersActive = 1 ∧
      (result.1.core.handlers 5).isSome = true ∧
      result.1.kernel 5 = some ⟨.real, some ⟨1, ⟨0, 0⟩, ⟨1, 0⟩⟩⟩ ∧
      ¬ Atomic .nonZts State.initial 5 (.other "function not found") ⟨1, 0⟩ {} := by
  refine ⟨by decide, by decide, by decide, by decide, by decide, by decide, ?_⟩
  intro hatomic
  have hdangling := (hatomic.rejected rfl).2.2
  revert hdangling
  decide

end Excimer.Object
