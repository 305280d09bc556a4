import Excimer.Timer.Descriptors
import Excimer.Timer.Layer

/-!
The kqueue timer library under the timers of the build without thread safety,
with its handler threads. A successful `timerlib_timer_start` opens a queue and
creates the thread, `timerlib_timer_stop` closes the queue and joins the thread.
The thread reads `timer->period` and uses `timer->kq` while the PHP thread clears
the one and closes the other.

A blocking `kevent` returns `EBADF` when its queue is closed; before that it
returns an event or `EINTR`. `close`, `pthread_join` and the mutexes do not fail.
A timer is started only while it does not run, as `ExcimerTimer::start` takes
care of. The kernel is assumed not to count so many expirations that the
conversion of the count to `int` is inexact.
-/

namespace Excimer.Timer.KqueueThreads

open Kqueue (Outcomes)

/-- A kernel queue: its timer, if it is armed, and whether that is a one-shot
timer, and the expirations that nobody has fetched yet. -/
structure Queue where
  armed : Option Bool := none
  expired : Int := 0
  deriving DecidableEq, Repr

/-- Where `timerlib_kqueue_handle` stands: in the blocking `kevent`, before the
call of `notify_function`, in that call after its critical section, before the
test of the period, before the call that reconfigures the queue, or after its
return. The flag is true until the queue has been reconfigured. -/
inductive ThreadPc where
  | absent
  | waiting (first : Bool)
  | fired (first : Bool) (overrun : Int)
  | storing (first : Bool)
  | testing
  | configuring
  | exited
  deriving DecidableEq, Repr

/-- One `timerlib_timer_t`. There is no queue before `kqueue()` and after
`close()`. The last three fields are histories that no step reads: the expirations
the kernel has counted, those that were dropped with a queue or by its
reconfiguration, and whether the thread has reported an error. -/
structure TimerlibTimer where
  queue : Option Queue := none
  period : Timespec := ⟨0, 0⟩
  thread : ThreadPc := .absent
  reported : Int := 0
  discarded : Int := 0
  complained : Bool := false
  deriving DecidableEq, Repr

/-- Where the PHP thread stands in `timerlib_timer_stop`. -/
inductive StopPc where
  | clearSec
  | clearNsec
  | close
  | join
  deriving DecidableEq, Repr

abbrev State := Layered TimerlibTimer (TimerId × StopPc)

def State.initial : State := ⟨Timer.State.initial, fun _ => {}, none⟩

inductive Action where
  | expire (timer : TimerId)
  /-- The blocking `kevent` returns in the handler thread. -/
  | wake (timer : TimerId) (interrupted : Bool)
  /-- The handler thread calls `excimer_timer_handle`, up to its last line. -/
  | notify (timer : TimerId)
  | store (timer : TimerId)
  /-- The handler thread tests the period after the first return. -/
  | test (timer : TimerId)
  /-- The handler thread reconfigures the queue, and the kernel may drop what it
  has counted before. -/
  | configure (timer : TimerId) (ok dropped : Bool)
  | raise
  | start (timer : TimerId) (period initial : Timespec) (outcomes : Outcomes)
  | php (move : Move)
  /-- The next step of the PHP thread inside `timerlib_timer_stop`. -/
  | library
  deriving DecidableEq, Repr

namespace TimerlibTimer

/-- The expirations in the queue. -/
def queued (t : TimerlibTimer) : Int := (t.queue.map Queue.expired).getD 0

def expire (t : TimerlibTimer) : Option TimerlibTimer :=
  match t.queue with
  | some ⟨some oneShot, expired⟩ =>
      if expired + 1 ≤ intMax then
        some { t with
          queue := some ⟨if oneShot then none else some false, expired + 1⟩
          reported := t.reported + 1 }
      else
        none
  | _ => none

/-- The return of the blocking `kevent` in `timerlib_handle_timer_event`. -/
def wake (t : TimerlibTimer) (interrupted : Bool) : Option TimerlibTimer :=
  match t.thread with
  | .waiting first =>
      match t.queue with
      | none => some { t with thread := .exited }
      | some queue =>
          if interrupted then
            some { t with thread := if first then .testing else .waiting false }
          else if 0 < queue.expired then
            some { t with
              thread := .fired first (queue.expired - 1)
              queue := some { queue with expired := 0 } }
          else
            none
  | _ => none

def test (t : TimerlibTimer) : Option TimerlibTimer :=
  if t.thread = .testing then
    some { t with thread := if t.period.isZero then .exited else .configuring }
  else
    none

/-- `timerlib_setup_kqueue_timer` in the handler thread. -/
def configure (t : TimerlibTimer) (ok dropped : Bool) : Option TimerlibTimer :=
  if t.thread = .configuring then
    match t.queue, ok with
    | some queue, true =>
        some { t with
          thread := .waiting false
          queue := some ⟨some false, if dropped then 0 else queue.expired⟩
          discarded := t.discarded + if dropped then queue.expired else 0 }
    | _, _ => some { t with thread := .exited, complained := true }
  else
    none

/-- `timerlib_timer_start`. A queue that an earlier start has left behind is
forgotten. -/
def start (t : TimerlibTimer) (period initial : Timespec) (outcomes : Outcomes) :
    TimerlibTimer × Bool :=
  let t := { t with period := period }
  if outcomes.kqueue then
    let t := { t with queue := some {}, discarded := t.discarded + t.queued }
    if outcomes.kevent then
      let first := !initial.isZero
      let t := { t with queue := some { armed := some first } }
      if outcomes.pthreadCreate then
        ({ t with thread := .waiting first, complained := false }, true)
      else
        (t, false)
    else
      (t, false)
  else
    (t, false)

/-- `close(timer->kq)` -/
def close (t : TimerlibTimer) : TimerlibTimer :=
  { t with queue := none, discarded := t.discarded + t.queued }

end TimerlibTimer

/-- A call of the PHP thread, outside of the library. `timerlib_timer_init` always
succeeds. A running timer enters `timerlib_timer_stop` when it is stopped or
destroyed. -/
def phpStep (b : State) : Move → Option State
  | .init timer ok =>
      if ok then
        (b.coreStep (.php 0 (.init timer true))).map fun next => next.setTimer timer {}
      else
        none
  | .start _ _ _ _ => none
  | .stop timer _ =>
      if b.core.runsPhp 0 ∧ (b.core.timers timer).isValid ∧ (b.core.timers timer).isRunning then
        some { b with library := some (timer, .clearSec) }
      else
        b.coreStep (.php 0 (.stop timer true))
  | .destroy timer =>
      (b.coreStep (.php 0 (.destroy timer))).map fun next =>
        match next.core.stack 0 with
        | .destroy _ .timerlib :: _ =>
            if (b.core.timers timer).isRunning then
              { next with library := some (timer, .clearSec) }
            else
              next
        | _ => next
  | move => b.coreStep (.php 0 move)

/-- `timerlib_timer_stop`. It returns to `excimer_timer_destroy`, which is on the
stack then, or to `excimer_timer_stop`. -/
def libraryStep (b : State) (timer : TimerId) : StopPc → Option State
  | .clearSec =>
      let t := b.timers timer
      some { b.setTimer timer { t with period := ⟨0, t.period.tvNsec⟩ } with
        library := some (timer, .clearNsec) }
  | .clearNsec =>
      let t := b.timers timer
      some { b.setTimer timer { t with period := ⟨t.period.tvSec, 0⟩ } with
        library := some (timer, .close) }
  | .close =>
      some { b.setTimer timer (b.timers timer).close with library := some (timer, .join) }
  | .join =>
      if (b.timers timer).thread = .exited then
        let joined := { b.setTimer timer { b.timers timer with thread := .absent } with
          library := none }
        match b.core.stack 0 with
        | .destroy _ _ :: _ => some joined
        | _ => joined.coreStep (.php 0 (.stop timer true))
      else
        none

def step (b : State) : Action → Option State
  | .expire timer => (b.timers timer).expire.map (b.setTimer timer)
  | .wake timer interrupted => ((b.timers timer).wake interrupted).map (b.setTimer timer)
  | .notify timer =>
      match (b.timers timer).thread with
      | .fired first overrun =>
          (b.coreStep (.handle timer overrun)).map fun next =>
            next.setTimer timer { b.timers timer with thread := .storing first }
      | _ => none
  | .store timer =>
      match (b.timers timer).thread with
      | .storing first =>
          (b.coreStep (.store timer)).map fun next =>
            next.setTimer timer { b.timers timer with
              thread := if first then .testing else .waiting false }
      | _ => none
  | .test timer => (b.timers timer).test.map (b.setTimer timer)
  | .configure timer ok dropped => ((b.timers timer).configure ok dropped).map (b.setTimer timer)
  | .raise => b.coreStep (.raise 0)
  | .start timer period initial outcomes =>
      if b.library = none ∧ (b.core.timers timer).isRunning = false then
        let result := (b.timers timer).start period (effectiveInitial period initial) outcomes
        let called := (b.core.timers timer).isValid && !(effectiveInitial period initial).isZero
        (b.coreStep (.php 0 (.start timer period initial result.2))).map fun next =>
          if called then next.setTimer timer result.1 else next
      else
        none
  | .php move => if b.library = none then phpStep b move else none
  | .library => b.library.bind fun call => libraryStep b call.1 call.2

def Reachable (b : State) : Prop :=
  Transition.Reachable step (· = State.initial) b

end Excimer.Timer.KqueueThreads
