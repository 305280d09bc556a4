import Excimer.Lib.Transition
import Excimer.Timer.PendingList
import Mathlib.Logic.Function.Basic

/-!
The timer subsystem of `excimer_timer.c` as a system of threads. Every PHP
thread has a stack of the C functions that are suspended or running in it, and
every initialised timer has a handler thread that may call
`excimer_timer_handle` at any moment. The timer library is seen through its
interface only: `timerlib_timer_init` and `timerlib_timer_destroy` create and
join the handler thread, and starting or stopping may succeed or fail.

The sections protected by the mutex in the handler and in the dequeue are one
step each; `excimer_timer_destroy` takes and releases the mutex in steps of its
own. An action that would dereference a null pointer has no result.
-/

namespace Excimer.Timer

open CircularList

/-- An operating system thread. -/
inductive Thread where
  | php (number : Nat)
  | handler (number : Nat)
  deriving DecidableEq, Repr

/-- How the extension was built: which PHP threads exist, and which instance
of the variable `excimer_timer_tls` the code of a thread refers to. -/
structure Build where
  isPhp : Nat → Bool
  tls : Thread → Thread

/-- `ZEND_TLS` is plain `static`: one PHP thread, one instance for all. -/
def Build.nonZts : Build := ⟨fun p => p == 0, fun _ => .php 0⟩

/-- `ZEND_TLS` gives every thread its own zero-initialised instance. -/
def Build.zts : Build := ⟨fun _ => true, fun thread => thread⟩

/-- The fields of `excimer_timer` that belong to this layer. The callback and
its user data are the identity of the timer, and `tl_timer` belongs to the
timer library. -/
structure ExcimerTimer where
  isValid : Bool := false
  isRunning : Bool := false
  vmInterruptPtr : Option Nat := none
  pendingNext : Option TimerId := none
  pendingPrev : Option TimerId := none
  eventCount : Int := 0
  tls : Option Thread := none
  deriving DecidableEq, Repr

/-- One instance of `excimer_timer_tls_t`; the mutex is represented by the
thread that holds it. -/
structure Tls where
  mutex : Option Thread := none
  pendingHead : Option TimerId := none
  timersActive : UInt64 := 0
  deriving DecidableEq, Repr

/-- A handler thread, with whether it has left the critical section of
`excimer_timer_handle` and not yet stored the interrupt flag. -/
structure Handler where
  number : Nat
  storing : Bool
  deriving DecidableEq, Repr

structure Timespec where
  tvSec : Int
  tvNsec : Int
  deriving DecidableEq, Repr

def Timespec.isZero (ts : Timespec) : Bool := ts.tvSec == 0 && ts.tvNsec == 0

/-- Where a running `excimer_timer_destroy` stands: inside the timer library,
before taking the mutex, inside the critical section before and after the
removal, and before the last two assignments. -/
inductive DestroyPc where
  | timerlib
  | lock
  | remove
  | unlock
  | finish
  deriving DecidableEq, Repr

/-- A C function on the stack of a PHP thread. `drain`, `deliver` and
`callback` are the loop of `excimer_timer_interrupt` before a dequeue, between
a dequeue and the call of the callback, and during that call. -/
inductive Frame where
  | drain
  | deliver (timer : TimerId) (count : Int)
  | callback (timer : TimerId)
  | destroy (timer : TimerId) (pc : DestroyPc)
  deriving DecidableEq, Repr

/-- What an observer can see happen. -/
inductive Event where
  | init (timer : TimerId) (ok : Bool)
  | start (timer : TimerId)
  | stop (timer : TimerId)
  | handle (timer : TimerId) (overrunCount : Int)
  | callback (timer : TimerId) (count : Int)
  | destroyed (timer : TimerId)
  | warning (message : String)
  deriving DecidableEq, Repr

/-- The trace is a history of the events so far, newest first; no step reads it. -/
structure State where
  timers : TimerId → ExcimerTimer
  tls : Thread → Tls
  vmInterrupt : Nat → Bool
  handlers : TimerId → Option Handler
  stack : Nat → List Frame
  nextThread : Nat
  trace : List Event

/-- All memory is zeroed and no timer has been initialised. -/
def State.initial : State where
  timers := fun _ => {}
  tls := fun _ => {}
  vmInterrupt := fun _ => false
  handlers := fun _ => none
  stack := fun _ => []
  nextThread := 0
  trace := []

/-- A step of a PHP thread. The calls of the API can be made whenever PHP code
runs, also from inside a callback. -/
inductive Move where
  | init (timer : TimerId) (ok : Bool)
  | start (timer : TimerId) (period initial : Timespec) (ok : Bool)
  | stop (timer : TimerId) (ok : Bool)
  | destroy (timer : TimerId)
  /-- The next step of the `excimer_timer_destroy` that is running. -/
  | destroyNext
  /-- The VM finds the flag set, clears it and calls `excimer_timer_interrupt`. -/
  | interrupt
  /-- `excimer_timer_pending_dequeue` in the loop of the interrupt function. -/
  | dequeue
  /-- The loop calls the callback of the timer it has dequeued. -/
  | call
  /-- The callback returns to the loop. -/
  | ret
  deriving DecidableEq, Repr

inductive Action where
  /-- The handler thread of a timer runs the critical section of
  `excimer_timer_handle`. -/
  | handle (timer : TimerId) (overrunCount : Int)
  /-- The same thread then stores the interrupt flag. -/
  | store (timer : TimerId)
  /-- Some other part of the engine sets the interrupt flag of a thread. -/
  | raise (php : Nat)
  | php (number : Nat) (move : Move)
  deriving DecidableEq, Repr

def intMax : Int := 2147483647

/-- The value of an `int` expression, taken modulo 2^32. -/
def toInt (value : Int) : Int := value.bmod (2 ^ 32)

theorem toInt_of_range {value : Int} (hlow : 0 ≤ value) (hhigh : value ≤ intMax) :
    toInt value = value := by
  unfold toInt intMax at *
  rw [Int.bmod_def]
  omega

namespace State

/-- The list that one instance of the thread-local data heads. -/
def links (s : State) (tls : Thread) : Links TimerId where
  next timer := (s.timers timer).pendingNext
  prev timer := (s.timers timer).pendingPrev
  head := (s.tls tls).pendingHead

def withLinks (s : State) (tls : Thread) (links : Links TimerId) : State :=
  { s with
    timers := fun timer => { s.timers timer with
      pendingNext := links.next timer
      pendingPrev := links.prev timer }
    tls := Function.update s.tls tls { s.tls tls with pendingHead := links.head } }

@[simp] theorem links_withLinks (s : State) (tls : Thread) (links : Links TimerId) :
    (s.withLinks tls links).links tls = links := by
  simp [State.links, withLinks]

/-- PHP code of a thread runs when nothing of the extension is on its stack,
or when the extension waits for a callback to return. -/
def runsPhp (s : State) (php : Nat) : Bool :=
  match s.stack php with
  | [] => true
  | .callback _ :: _ => true
  | _ => false

def setTimer (s : State) (timer : TimerId) (value : ExcimerTimer) : State :=
  { s with timers := Function.update s.timers timer value }

def setRunning (s : State) (timer : TimerId) (running : Bool) : State :=
  s.setTimer timer { s.timers timer with isRunning := running }

def setStack (s : State) (php : Nat) (frames : List Frame) : State :=
  { s with stack := Function.update s.stack php frames }

def setMutex (s : State) (tls : Thread) (holder : Option Thread) : State :=
  { s with tls := Function.update s.tls tls { s.tls tls with mutex := holder } }

def record (s : State) (event : Event) : State :=
  { s with trace := event :: s.trace }

end State

variable (build : Build)

/-- `excimer_timer_handle` up to the release of the mutex, run by `thread`. -/
def handleEnqueue (thread : Thread) (s : State) (timer : TimerId)
    (overrunCount : Int) : Option State :=
  let self := build.tls thread
  if (s.tls self).mutex = none then
    let t := s.timers timer
    let s := s.setTimer timer { t with eventCount := t.eventCount + toInt (overrunCount + 1) }
    (listEnqueue (s.links self) timer).map fun links => s.withLinks self links
  else
    none

/-- `excimer_timer_pending_dequeue`: the dequeued timer and its count. -/
def pendingDequeue (thread : Thread) (s : State) :
    Option (State × Option (TimerId × Int)) :=
  let self := build.tls thread
  if (s.tls self).mutex = none then
    (listDequeue (s.links self)).map fun result =>
      let s := s.withLinks self result.1
      match result.2 with
      | none => (s, none)
      | some timer =>
          let t := s.timers timer
          (s.setTimer timer { t with eventCount := 0 }, some (timer, t.eventCount))
  else
    none

/-- `excimer_timer_init`, whose outcome is that of `timerlib_timer_init`. Both
callers destroy a valid timer first. -/
def timerInit (php : Nat) (s : State) (timer : TimerId) (ok : Bool) : State :=
  let self := build.tls (.php php)
  let t : ExcimerTimer := { vmInterruptPtr := some php, tls := some self }
  let s := s.record (.init timer ok)
  if ok then
    { s with
      timers := Function.update s.timers timer { t with isValid := true }
      tls := Function.update s.tls self
        { s.tls self with timersActive := (s.tls self).timersActive + 1 }
      handlers := Function.update s.handlers timer (some ⟨s.nextThread, false⟩)
      nextThread := s.nextThread + 1 }
  else
    s.setTimer timer t

/-- If a periodic timer has an initial value of 0, the period is used instead. -/
def effectiveInitial (period initial : Timespec) : Timespec :=
  if initial.isZero then period else initial

/-- `excimer_timer_start`, with the outcome of `timerlib_timer_start`. -/
def timerStart (s : State) (timer : TimerId) (period initial : Timespec)
    (ok : Bool) : State :=
  if (s.timers timer).isValid = false then
    s.record (.warning "Unable to start uninitialised timer")
  else if (effectiveInitial period initial).isZero then
    s.record (.warning "Unable to start timer with a value of zero duration and period")
  else if ok then
    (s.setRunning timer true).record (.start timer)
  else
    s

/-- `excimer_timer_stop`, with the outcome of `timerlib_timer_stop`. The event
says that the call has returned with `is_running` clear. -/
def timerStop (s : State) (timer : TimerId) (ok : Bool) : State :=
  if (s.timers timer).isValid = false then
    s.record (.warning "Unable to start uninitialised timer")
  else if (s.timers timer).isRunning then
    if ok then
      (s.setRunning timer false).record (.stop timer)
    else
      s
  else
    s.record (.stop timer)

/-- `excimer_timer_destroy` up to the call of `timerlib_timer_destroy`. -/
def timerDestroy (php : Nat) (s : State) (timer : TimerId) : State :=
  if (s.timers timer).isValid = false then
    s.record (.destroyed timer)
  else if (s.timers timer).tls ≠ some (build.tls (.php php)) then
    (s.record (.warning "Cannot delete a timer belonging to a different thread")).record
      (.destroyed timer)
  else
    (s.setRunning timer false).setStack php (.destroy timer .timerlib :: s.stack php)

/-- The steps of `excimer_timer_destroy` from there on. The library returns
once the handler thread is gone, for which it must be outside of
`excimer_timer_handle`. -/
def destroyNext (php : Nat) (s : State) (timer : TimerId) (rest : List Frame) :
    DestroyPc → Option State
  | .timerlib =>
      let self := build.tls (.php php)
      let joined : State := { s with
        handlers := Function.update s.handlers timer none
        tls := Function.update s.tls self
          { s.tls self with timersActive := (s.tls self).timersActive - 1 } }
      match s.handlers timer with
      | some ⟨_, true⟩ => none
      | _ => some (joined.setStack php (.destroy timer .lock :: rest))
  | .lock =>
      let self := build.tls (.php php)
      if (s.tls self).mutex = none then
        some ((s.setMutex self (some (.php php))).setStack php
          (.destroy timer .remove :: rest))
      else
        none
  | .remove =>
      let self := build.tls (.php php)
      (listRemove (s.links self) timer).map fun links =>
        (s.withLinks self links).setStack php (.destroy timer .unlock :: rest)
  | .unlock =>
      some ((s.setMutex (build.tls (.php php)) none).setStack php
        (.destroy timer .finish :: rest))
  | .finish =>
      let t := s.timers timer
      some (((s.setTimer timer { t with isValid := false, tls := none }).setStack php
        rest).record (.destroyed timer))

def phpStep (php : Nat) (s : State) : Move → Option State
  | .init timer ok =>
      if s.runsPhp php ∧ (s.timers timer).isValid = false then
        some (timerInit build php s timer ok)
      else
        none
  | .start timer period initial ok =>
      if s.runsPhp php then some (timerStart s timer period initial ok) else none
  | .stop timer ok =>
      if s.runsPhp php then some (timerStop s timer ok) else none
  | .destroy timer =>
      if s.runsPhp php then some (timerDestroy build php s timer) else none
  | .destroyNext =>
      match s.stack php with
      | .destroy timer pc :: rest => destroyNext build php s timer rest pc
      | _ => none
  | .interrupt =>
      if s.runsPhp php ∧ s.vmInterrupt php then
        some ({ s with vmInterrupt := Function.update s.vmInterrupt php false }.setStack
          php (.drain :: s.stack php))
      else
        none
  | .dequeue =>
      match s.stack php with
      | .drain :: rest =>
          (pendingDequeue build (.php php) s).map fun result =>
            match result.2 with
            | none => result.1.setStack php rest
            | some (timer, count) => result.1.setStack php (.deliver timer count :: rest)
      | _ => none
  | .call =>
      match s.stack php with
      | .deliver timer count :: rest =>
          some ((s.setStack php (.callback timer :: rest)).record (.callback timer count))
      | _ => none
  | .ret =>
      match s.stack php with
      | .callback _ :: rest => some (s.setStack php (.drain :: rest))
      | _ => none

def step (s : State) : Action → Option State
  | .handle timer overrunCount =>
      match s.handlers timer with
      | some ⟨number, false⟩ =>
          if 0 ≤ overrunCount ∧ overrunCount + 1 ≤ intMax then
            (handleEnqueue build (.handler number) s timer overrunCount).map fun s =>
              { s with
                handlers := Function.update s.handlers timer (some ⟨number, true⟩)
                trace := .handle timer overrunCount :: s.trace }
          else
            none
      | _ => none
  | .store timer =>
      match s.handlers timer, (s.timers timer).vmInterruptPtr with
      | some ⟨number, true⟩, some php =>
          some { s with
            handlers := Function.update s.handlers timer (some ⟨number, false⟩)
            vmInterrupt := Function.update s.vmInterrupt php true }
      | _, _ => none
  | .raise php => some { s with vmInterrupt := Function.update s.vmInterrupt php true }
  | .php number move => if build.isPhp number then phpStep build number s move else none

/-- The states of the timer subsystem that some interleaving reaches. -/
def Reachable (s : State) : Prop :=
  Transition.Reachable (step build) (· = State.initial) s

/-- Everything that a PHP thread can do, with the guards under which it does it. -/
inductive PhpMoves (php : Nat) (s : State) : Move → State → Prop
  | init {timer : TimerId} {ok : Bool} (hphp : s.runsPhp php = true)
      (hinvalid : (s.timers timer).isValid = false) :
      PhpMoves php s (.init timer ok) (timerInit build php s timer ok)
  | start {timer : TimerId} {period initial : Timespec} {ok : Bool}
      (hphp : s.runsPhp php = true) :
      PhpMoves php s (.start timer period initial ok) (timerStart s timer period initial ok)
  | stop {timer : TimerId} {ok : Bool} (hphp : s.runsPhp php = true) :
      PhpMoves php s (.stop timer ok) (timerStop s timer ok)
  | destroy {timer : TimerId} (hphp : s.runsPhp php = true) :
      PhpMoves php s (.destroy timer) (timerDestroy build php s timer)
  | join {timer : TimerId} {rest : List Frame}
      (hstack : s.stack php = .destroy timer .timerlib :: rest)
      (hidle : ∀ number, s.handlers timer ≠ some ⟨number, true⟩) :
      PhpMoves php s .destroyNext (State.setStack { s with
        handlers := Function.update s.handlers timer none
        tls := Function.update s.tls (build.tls (.php php))
          { s.tls (build.tls (.php php)) with
            timersActive := (s.tls (build.tls (.php php))).timersActive - 1 } }
        php (.destroy timer .lock :: rest))
  | lock {timer : TimerId} {rest : List Frame}
      (hstack : s.stack php = .destroy timer .lock :: rest)
      (hfree : (s.tls (build.tls (.php php))).mutex = none) :
      PhpMoves php s .destroyNext
        ((s.setMutex (build.tls (.php php)) (some (.php php))).setStack php
          (.destroy timer .remove :: rest))
  | remove {timer : TimerId} {rest : List Frame} {links : Links TimerId}
      (hstack : s.stack php = .destroy timer .remove :: rest)
      (hremove : listRemove (s.links (build.tls (.php php))) timer = some links) :
      PhpMoves php s .destroyNext
        ((s.withLinks (build.tls (.php php)) links).setStack php (.destroy timer .unlock :: rest))
  | unlock {timer : TimerId} {rest : List Frame}
      (hstack : s.stack php = .destroy timer .unlock :: rest) :
      PhpMoves php s .destroyNext
        ((s.setMutex (build.tls (.php php)) none).setStack php (.destroy timer .finish :: rest))
  | finish {timer : TimerId} {rest : List Frame}
      (hstack : s.stack php = .destroy timer .finish :: rest) :
      PhpMoves php s .destroyNext
        (((s.setTimer timer { s.timers timer with isValid := false, tls := none }).setStack php
          rest).record (.destroyed timer))
  | interrupt (hphp : s.runsPhp php = true) (hraised : s.vmInterrupt php = true) :
      PhpMoves php s .interrupt
        ({ s with vmInterrupt := Function.update s.vmInterrupt php false }.setStack php
          (.drain :: s.stack php))
  | dequeue {rest : List Frame} {result : State × Option (TimerId × Int)}
      (hstack : s.stack php = .drain :: rest)
      (hdequeue : pendingDequeue build (.php php) s = some result) :
      PhpMoves php s .dequeue
        (match result.2 with
        | none => result.1.setStack php rest
        | some (timer, count) => result.1.setStack php (.deliver timer count :: rest))
  | call {timer : TimerId} {count : Int} {rest : List Frame}
      (hstack : s.stack php = .deliver timer count :: rest) :
      PhpMoves php s .call
        ((s.setStack php (.callback timer :: rest)).record (.callback timer count))
  | ret {timer : TimerId} {rest : List Frame} (hstack : s.stack php = .callback timer :: rest) :
      PhpMoves php s .ret (s.setStack php (.drain :: rest))

/-- The same for a step of the subsystem. -/
inductive Moves (s : State) : Action → State → Prop
  | handle {timer : TimerId} {overrunCount : Int} {number : Nat} {after : State}
      (hhandler : s.handlers timer = some ⟨number, false⟩)
      (hrange : 0 ≤ overrunCount ∧ overrunCount + 1 ≤ intMax)
      (henqueue : handleEnqueue build (.handler number) s timer overrunCount = some after) :
      Moves s (.handle timer overrunCount)
        { after with
          handlers := Function.update after.handlers timer (some ⟨number, true⟩)
          trace := .handle timer overrunCount :: after.trace }
  | store {timer : TimerId} {number php : Nat}
      (hhandler : s.handlers timer = some ⟨number, true⟩)
      (hptr : (s.timers timer).vmInterruptPtr = some php) :
      Moves s (.store timer)
        { s with
          handlers := Function.update s.handlers timer (some ⟨number, false⟩)
          vmInterrupt := Function.update s.vmInterrupt php true }
  | raise {php : Nat} :
      Moves s (.raise php) { s with vmInterrupt := Function.update s.vmInterrupt php true }
  | php {number : Nat} {move : Move} {next : State} (hphp : build.isPhp number = true)
      (hmove : phpStep build number s move = some next) : Moves s (.php number move) next

section Inversion

variable {build : Build} {s next : State}

theorem destroyNext_moves {php : Nat} {timer : TimerId} {rest : List Frame} {pc : DestroyPc}
    (hstack : s.stack php = .destroy timer pc :: rest)
    (hstep : destroyNext build php s timer rest pc = some next) :
    PhpMoves build php s .destroyNext next := by
  cases pc with
  | timerlib =>
      simp only [destroyNext] at hstep
      split at hstep
      case h_1 => cases hstep
      case h_2 hidle =>
        cases hstep
        exact .join hstack hidle
  | lock =>
      obtain ⟨hfree, heq⟩ := Option.ite_none_right_eq_some.mp hstep
      cases heq
      exact .lock hstack hfree
  | remove =>
      obtain ⟨links, hremove, rfl⟩ := Option.map_eq_some_iff.mp hstep
      exact .remove hstack hremove
  | unlock =>
      cases hstep
      exact .unlock hstack
  | finish =>
      cases hstep
      exact .finish hstack

theorem phpStep_moves {php : Nat} {move : Move} (hstep : phpStep build php s move = some next) :
    PhpMoves build php s move next := by
  cases move with
  | init timer ok =>
      obtain ⟨⟨hphp, hinvalid⟩, heq⟩ := Option.ite_none_right_eq_some.mp hstep
      cases heq
      exact .init hphp hinvalid
  | start timer period initial ok =>
      obtain ⟨hphp, heq⟩ := Option.ite_none_right_eq_some.mp hstep
      cases heq
      exact .start hphp
  | stop timer ok =>
      obtain ⟨hphp, heq⟩ := Option.ite_none_right_eq_some.mp hstep
      cases heq
      exact .stop hphp
  | destroy timer =>
      obtain ⟨hphp, heq⟩ := Option.ite_none_right_eq_some.mp hstep
      cases heq
      exact .destroy hphp
  | destroyNext =>
      simp only [phpStep] at hstep
      split at hstep
      case h_1 hstack => exact destroyNext_moves hstack hstep
      case h_2 => cases hstep
  | interrupt =>
      obtain ⟨⟨hphp, hraised⟩, heq⟩ := Option.ite_none_right_eq_some.mp hstep
      cases heq
      exact .interrupt hphp hraised
  | dequeue =>
      simp only [phpStep] at hstep
      split at hstep
      case h_1 hstack =>
        obtain ⟨result, hdequeue, rfl⟩ := Option.map_eq_some_iff.mp hstep
        exact .dequeue hstack hdequeue
      case h_2 => cases hstep
  | call =>
      simp only [phpStep] at hstep
      split at hstep
      case h_1 hstack =>
        cases hstep
        exact .call hstack
      case h_2 => cases hstep
  | ret =>
      simp only [phpStep] at hstep
      split at hstep
      case h_1 hstack =>
        cases hstep
        exact .ret hstack
      case h_2 => cases hstep

theorem step_moves {action : Action} (hstep : step build s action = some next) :
    Moves build s action next := by
  cases action with
  | handle timer overrunCount =>
      simp only [step] at hstep
      split at hstep
      case h_1 hhandler =>
        obtain ⟨hrange, hstep⟩ := Option.ite_none_right_eq_some.mp hstep
        obtain ⟨after, henqueue, rfl⟩ := Option.map_eq_some_iff.mp hstep
        exact .handle hhandler hrange henqueue
      case h_2 => cases hstep
  | store timer =>
      simp only [step] at hstep
      split at hstep
      case h_1 hhandler hptr =>
        cases hstep
        exact .store hhandler hptr
      case h_2 => cases hstep
  | raise php =>
      cases hstep
      exact .raise
  | php number move =>
      obtain ⟨hphp, hmove⟩ := Option.ite_none_right_eq_some.mp hstep
      exact .php hphp hmove

end Inversion

end Excimer.Timer
