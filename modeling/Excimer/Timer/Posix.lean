import Excimer.Timer.Layer
import Mathlib.Algebra.BigOperators.Group.List.Basic
import Mathlib.Algebra.Order.Ring.Int

/-!
The POSIX timer library, `timerlib_posix.c`, under the timers of the build
without thread safety. A state adds to the state of `excimer_timer.c` the
fields of every `timerlib_timer_t`, the kernel timer and the signals pending
for the handler thread, the program counter of that thread, and where the PHP
thread stands in `timerlib_timer_destroy`.

`pthread_kill`, `pthread_join` and the mutexes do not fail. A call that arms,
disarms or deletes the kernel timer may fail. The kernel may report the expiry
of an armed timer at any moment, or drop it while another signal is pending.
POSIX leaves open what arming or disarming does to the signals that earlier
expiries have left pending: the kernel may keep them or discard them.
`timerlib_timer_init` is one step: if it fails, the thread it may have created
has been joined when it returns. `timer_delete` leaves the thread alone.
-/

namespace Excimer.Timer.Posix

/-- A pending `TIMERLIB_SIGNAL`: `si_code` and, for `SI_TIMER`, `si_overrun`. -/
inductive Signal where
  | timer (overrun : Int)
  | kill
  deriving DecidableEq, Repr

def Signal.isKill : Signal → Bool
  | .timer _ => false
  | .kill => true

/-- The expiries that a signal stands for. -/
def Signal.count : Signal → Int
  | .timer overrun => overrun + 1
  | .kill => 0

/-- Where `timerlib_timer_thread_main` stands: in `sigwaitinfo`, before the
test of `killed`, before the call of `notify_function`, in that call after its
critical section, or after its return. -/
inductive ThreadPc where
  | absent
  | waiting
  | woken (signal : Signal)
  | notifying (overrun : Int)
  | storing
  | exited
  deriving DecidableEq, Repr

/-- One `timerlib_timer_t` with the kernel objects it names. An armed kernel
timer is represented by its interval. After a call of `timer_settime` the timer is
`rearmed` until its signals are looked at again. How many expiries the kernel has
reported and how many of these it has discarded is a history that no step reads. -/
structure TimerlibTimer where
  timerValid : Bool := false
  threadValid : Bool := false
  killed : Bool := false
  armed : Option Timespec := none
  pending : List Signal := []
  thread : ThreadPc := .absent
  rearmed : Bool := false
  reported : Int := 0
  discarded : Int := 0
  deriving DecidableEq, Repr

/-- Where the PHP thread stands between the call of `timerlib_timer_stop` in
`excimer_timer_destroy` and the return of `timerlib_timer_destroy`. -/
inductive LibraryPc where
  | stop
  | gracefulExit
  | kill
  | join
  | delete
  deriving DecidableEq, Repr

abbrev State := Layered TimerlibTimer LibraryPc

def State.initial : State := ⟨Timer.State.initial, fun _ => {}, none⟩

/-- What the kernel does about an expiry. -/
inductive Report where
  | queued
  | merged
  | dropped
  deriving DecidableEq, Repr

inductive Action where
  | expire (timer : TimerId) (report : Report)
  /-- The last call of `timer_settime` has discarded the pending expiries, so
  many of them. -/
  | discard (timer : TimerId) (lost : Int)
  /-- `sigwaitinfo` returns in the handler thread with one of the signals. -/
  | wake (timer : TimerId) (signal : Signal)
  /-- The handler thread tests `killed` and `si_code`. -/
  | test (timer : TimerId)
  /-- The handler thread calls `excimer_timer_handle`, up to its last line. -/
  | notify (timer : TimerId)
  | store (timer : TimerId)
  | raise
  | php (move : Move)
  /-- The next step of the PHP thread inside the library, with the outcome of
  the system call it makes. -/
  | library (ok : Bool)
  deriving DecidableEq, Repr

/-- The overrun of a signal that is already pending is incremented. The kernel
is assumed not to merge so many expiries that `overrun_count + 1` overflows. -/
def mergeExpiry : List Signal → Option (List Signal)
  | [] => none
  | .timer overrun :: rest =>
      if overrun + 2 ≤ intMax then some (.timer (overrun + 1) :: rest) else none
  | .kill :: rest => (mergeExpiry rest).map fun merged => .kill :: merged

def sendExpiry (pending : List Signal) : Report → Option (List Signal)
  | .queued => some (pending ++ [.timer 0])
  | .merged => mergeExpiry pending
  | .dropped => if pending = [] then none else some pending

def Report.count : Report → Int
  | .queued | .merged => 1
  | .dropped => 0

namespace TimerlibTimer

/-- A timer with an interval of zero is disarmed by its expiry. -/
def expire (t : TimerlibTimer) (report : Report) : Option TimerlibTimer :=
  match t.armed with
  | none => none
  | some interval =>
      (sendExpiry t.pending report).map fun pending =>
        { t with
          armed := if interval.isZero then none else some interval
          pending := pending
          rearmed := false
          reported := t.reported + report.count }

/-- What `timer_settime` may do to the signals it finds pending. It is a step of
its own that has to come before they are looked at again. -/
def discard (t : TimerlibTimer) (lost : Int) : Option TimerlibTimer :=
  if t.rearmed = true ∧ lost = (t.pending.map Signal.count).sum then
    some { t with
      pending := t.pending.filter Signal.isKill
      rearmed := false
      discarded := t.discarded + lost }
  else
    none

def wake (t : TimerlibTimer) (signal : Signal) : Option TimerlibTimer :=
  if t.thread = .waiting ∧ signal ∈ t.pending then
    some { t with
      thread := .woken signal
      pending := t.pending.erase signal
      rearmed := false }
  else
    none

def test (t : TimerlibTimer) : Option TimerlibTimer :=
  match t.thread with
  | .woken signal =>
      if t.killed then
        some { t with thread := .exited }
      else
        match signal with
        | .timer overrun => some { t with thread := .notifying overrun }
        | .kill => some { t with thread := .waiting }
  | _ => none

/-- `timerlib_timer_start` with the outcome of `timer_settime`. -/
def start (t : TimerlibTimer) (period : Timespec) (ok : Bool) : TimerlibTimer × Bool :=
  if t.timerValid && ok then
    ({ t with armed := some period, rearmed := true }, true)
  else
    (t, false)

/-- `timerlib_timer_stop` with the outcome of `timer_settime`. -/
def stop (t : TimerlibTimer) (ok : Bool) : TimerlibTimer × Bool :=
  if t.timerValid && ok then ({ t with armed := none, rearmed := true }, true) else (t, false)

/-- The end of `timerlib_timer_destroy` with the outcome of `timer_delete`. -/
def delete (t : TimerlibTimer) (ok : Bool) : TimerlibTimer :=
  if t.timerValid then
    { t with timerValid := false, armed := if ok then none else t.armed }
  else
    t

@[simp] theorem delete_pending (t : TimerlibTimer) (ok : Bool) :
    (t.delete ok).pending = t.pending := by
  unfold delete
  split <;> rfl

@[simp] theorem delete_thread (t : TimerlibTimer) (ok : Bool) :
    (t.delete ok).thread = t.thread := by
  unfold delete
  split <;> rfl

end TimerlibTimer

/-- A call of the PHP thread. The library decides whether arming and disarming
succeeds; `excimer_timer_destroy` enters the library. -/
def phpStep (b : State) : Move → Option State
  | .init timer ok =>
      let t : TimerlibTimer :=
        if ok then { timerValid := true, threadValid := true, thread := .waiting } else {}
      (b.coreStep (.php 0 (.init timer ok))).map fun next => next.setTimer timer t
  | .start timer period initial ok =>
      let result := (b.timers timer).start period ok
      let called := (b.core.timers timer).isValid && !(effectiveInitial period initial).isZero
      (b.coreStep (.php 0 (.start timer period initial result.2))).map fun next =>
        if called then next.setTimer timer result.1 else next
  | .stop timer ok =>
      let result := (b.timers timer).stop ok
      let called := (b.core.timers timer).isValid && (b.core.timers timer).isRunning
      (b.coreStep (.php 0 (.stop timer result.2))).map fun next =>
        if called then next.setTimer timer result.1 else next
  | .destroy timer =>
      let pc : LibraryPc := if (b.core.timers timer).isRunning then .stop else .gracefulExit
      (b.coreStep (.php 0 (.destroy timer))).map fun next =>
        match next.core.stack 0 with
        | .destroy _ .timerlib :: _ => { next with library := some pc }
        | _ => next
  | .destroyNext => if b.library = none then b.coreStep (.php 0 .destroyNext) else none
  | move => b.coreStep (.php 0 move)

/-- `timerlib_timer_destroy`, preceded by `timerlib_timer_stop` for a running
timer. Its return is the step of `excimer_timer_destroy` that leaves the
library. -/
def libraryStep (b : State) (timer : TimerId) (ok : Bool) : LibraryPc → Option State
  | .stop =>
      some { b.setTimer timer ((b.timers timer).stop ok).1 with library := some .gracefulExit }
  | .gracefulExit =>
      let t := b.timers timer
      if t.threadValid then
        some { b.setTimer timer { t with threadValid := false, killed := true } with
          library := some .kill }
      else
        some { b with library := some .delete }
  | .kill =>
      let t := b.timers timer
      if ok then
        some { b.setTimer timer { t with pending := t.pending ++ [.kill], rearmed := false } with
          library := some .join }
      else if t.pending = [] then
        none
      else
        some { b.setTimer timer { t with rearmed := false } with library := some .join }
  | .join =>
      if (b.timers timer).thread = .exited then
        some { b with library := some .delete }
      else
        none
  | .delete =>
      (b.coreStep (.php 0 .destroyNext)).map fun next =>
        { next.setTimer timer ((b.timers timer).delete ok) with library := none }

def step (b : State) : Action → Option State
  | .expire timer report => ((b.timers timer).expire report).map (b.setTimer timer)
  | .discard timer lost => ((b.timers timer).discard lost).map (b.setTimer timer)
  | .wake timer signal => ((b.timers timer).wake signal).map (b.setTimer timer)
  | .test timer => (b.timers timer).test.map (b.setTimer timer)
  | .notify timer =>
      match (b.timers timer).thread with
      | .notifying overrun =>
          (b.coreStep (.handle timer overrun)).map fun next =>
            next.setTimer timer { b.timers timer with thread := .storing }
      | _ => none
  | .store timer =>
      if (b.timers timer).thread = .storing then
        (b.coreStep (.store timer)).map fun next =>
          next.setTimer timer { b.timers timer with thread := .waiting }
      else
        none
  | .raise => b.coreStep (.raise 0)
  | .php move => phpStep b move
  | .library ok =>
      match b.library, b.core.stack 0 with
      | some pc, .destroy timer _ :: _ => libraryStep b timer ok pc
      | _, _ => none

def Reachable (b : State) : Prop :=
  Transition.Reachable step (· = State.initial) b

/-- Everything that a step in the library can do, with the guards under which it
does it. -/
inductive LibraryMoves (b : State) (timer : TimerId) (ok : Bool) : LibraryPc → State → Prop
  | stop : LibraryMoves b timer ok .stop
      { b.setTimer timer ((b.timers timer).stop ok).1 with library := some .gracefulExit }
  | gracefulExit (hthread : (b.timers timer).threadValid = true) :
      LibraryMoves b timer ok .gracefulExit
        { b.setTimer timer { b.timers timer with threadValid := false, killed := true } with
          library := some .kill }
  | noThread (hthread : (b.timers timer).threadValid = false) :
      LibraryMoves b timer ok .gracefulExit { b with library := some .delete }
  | kill (hok : ok = true) : LibraryMoves b timer ok .kill
      { b.setTimer timer { b.timers timer with
          pending := (b.timers timer).pending ++ [.kill], rearmed := false } with
        library := some .join }
  | queueFull (hok : ok = false) (hpending : (b.timers timer).pending ≠ []) :
      LibraryMoves b timer ok .kill
        { b.setTimer timer { b.timers timer with rearmed := false } with library := some .join }
  | join (hexited : (b.timers timer).thread = .exited) :
      LibraryMoves b timer ok .join { b with library := some .delete }
  | delete {mid : State} (hmid : b.coreStep (.php 0 .destroyNext) = some mid) :
      LibraryMoves b timer ok .delete
        { mid.setTimer timer ((b.timers timer).delete ok) with library := none }

theorem libraryStep_moves {b next : State} {timer : TimerId} {ok : Bool} {pc : LibraryPc}
    (hstep : libraryStep b timer ok pc = some next) : LibraryMoves b timer ok pc next := by
  cases pc with
  | stop =>
      cases hstep
      exact .stop
  | gracefulExit =>
      simp only [libraryStep] at hstep
      split at hstep
      case isTrue hthread =>
        cases hstep
        exact .gracefulExit hthread
      case isFalse hthread =>
        cases hstep
        exact .noThread (Bool.eq_false_iff.mpr hthread)
  | kill =>
      simp only [libraryStep] at hstep
      split at hstep
      case isTrue hok =>
        cases hstep
        exact .kill hok
      case isFalse hok =>
        obtain ⟨hpending, heq⟩ := Option.ite_none_left_eq_some.mp hstep
        cases heq
        exact .queueFull (Bool.eq_false_iff.mpr hok) hpending
  | join =>
      obtain ⟨hexited, heq⟩ := Option.ite_none_right_eq_some.mp hstep
      cases heq
      exact .join hexited
  | delete =>
      obtain ⟨mid, hmid, rfl⟩ := Option.map_eq_some_iff.mp hstep
      exact .delete hmid

theorem step_library {b next : State} {ok : Bool} (hstep : step b (.library ok) = some next) :
    ∃ pc timer own rest, b.library = some pc ∧ b.core.stack 0 = .destroy timer own :: rest ∧
      LibraryMoves b timer ok pc next := by
  simp only [step] at hstep
  split at hstep
  case h_1 pc timer own rest hlibrary hstack =>
    exact ⟨pc, timer, own, rest, hlibrary, hstack, libraryStep_moves hstep⟩
  case h_2 => cases hstep

/-- A step leaves the state of `excimer_timer.c` alone or is one of its own
steps, and a timer is destroyed only when PHP code asks for it. -/
def Mirrors (b : State) (action : Action) (next : State) : Prop :=
  next.core = b.core ∨ ∃ own, Timer.step .nonZts b.core own = some next.core ∧
    ∀ number timer, own = .php number (.destroy timer) → action = .php (.destroy timer)

section Core

variable {b mid next : State} {action : Action}

theorem coreStep_mirrors {own : Timer.Action} (hmid : b.coreStep own = some mid)
    (hsame : next.core = mid.core)
    (hdestroy : ∀ number timer, own = .php number (.destroy timer) →
      action = .php (.destroy timer)) : Mirrors b action next := by
  exact Or.inr ⟨own, Layered.coreStep_core hmid hsame, hdestroy⟩

theorem phpStep_mirrors (move : Move) (hstep : phpStep b move = some next) :
    Mirrors b (.php move) next := by
  cases move with
  | init timer ok =>
      obtain ⟨mid, hmid, rfl⟩ := Option.map_eq_some_iff.mp hstep
      exact coreStep_mirrors hmid rfl (by simp)
  | start timer period initial ok =>
      obtain ⟨mid, hmid, rfl⟩ := Option.map_eq_some_iff.mp hstep
      apply coreStep_mirrors hmid _ (by simp)
      split <;> rfl
  | stop timer ok =>
      obtain ⟨mid, hmid, rfl⟩ := Option.map_eq_some_iff.mp hstep
      apply coreStep_mirrors hmid _ (by simp)
      split <;> rfl
  | destroy timer =>
      obtain ⟨mid, hmid, rfl⟩ := Option.map_eq_some_iff.mp hstep
      apply coreStep_mirrors hmid _ (by simp)
      split <;> rfl
  | destroyNext =>
      obtain ⟨_, hstep⟩ := Option.ite_none_right_eq_some.mp hstep
      exact coreStep_mirrors hstep rfl (by simp)
  | interrupt => exact coreStep_mirrors hstep rfl (by simp)
  | dequeue => exact coreStep_mirrors hstep rfl (by simp)
  | call => exact coreStep_mirrors hstep rfl (by simp)
  | ret => exact coreStep_mirrors hstep rfl (by simp)

theorem library_mirrors {ok : Bool} (hstep : step b (.library ok) = some next) :
    Mirrors b (.library ok) next := by
  obtain ⟨pc, timer, own, rest, _, _, hmoves⟩ := step_library hstep
  cases hmoves with
  | delete hmid => exact coreStep_mirrors hmid rfl (by simp)
  | _ => exact Or.inl rfl

/-- The library does not add behaviour to `excimer_timer.c`. -/
theorem step_core (action : Action) (hstep : step b action = some next) :
    Mirrors b action next := by
  cases action with
  | expire timer report =>
      obtain ⟨t, _, rfl⟩ := Option.map_eq_some_iff.mp hstep
      exact Or.inl rfl
  | discard timer lost =>
      obtain ⟨t, _, rfl⟩ := Option.map_eq_some_iff.mp hstep
      exact Or.inl rfl
  | wake timer signal =>
      obtain ⟨t, _, rfl⟩ := Option.map_eq_some_iff.mp hstep
      exact Or.inl rfl
  | test timer =>
      obtain ⟨t, _, rfl⟩ := Option.map_eq_some_iff.mp hstep
      exact Or.inl rfl
  | notify timer =>
      simp only [step] at hstep
      split at hstep
      · obtain ⟨mid, hmid, rfl⟩ := Option.map_eq_some_iff.mp hstep
        exact coreStep_mirrors hmid rfl (by simp)
      · cases hstep
  | store timer =>
      obtain ⟨_, hstep⟩ := Option.ite_none_right_eq_some.mp hstep
      obtain ⟨mid, hmid, rfl⟩ := Option.map_eq_some_iff.mp hstep
      exact coreStep_mirrors hmid rfl (by simp)
  | raise => exact coreStep_mirrors hstep rfl (by simp)
  | php move => exact phpStep_mirrors move hstep
  | library ok => exact library_mirrors hstep

end Core

theorem core_reachable {b : State} (hreach : Reachable b) :
    Timer.Reachable .nonZts b.core := by
  refine Transition.Reachable.project Layered.core ?_ ?_ hreach
  · rintro _ rfl
    rfl
  · intro b action next hstep
    rcases step_core action hstep with hsame | ⟨own, hown, _⟩
    · exact Or.inl hsame
    · exact Or.inr ⟨own, hown⟩

end Excimer.Timer.Posix
