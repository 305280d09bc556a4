import Excimer.Timer.System

/-!
The PHP objects of `excimer.c` that own a timer. `ExcimerTimer` and
`ExcimerProfiler` keep their configuration in the object and apply it lazily:
`start` destroys and initialises the timer of the object again when the event
type has changed, and then arms it. The fields of the two classes that this
concerns are the same and so is most of the code, which is written once here.

The objects are driven by one PHP thread. A call that has to destroy a timer
waits for the steps of `excimer_timer_destroy` in the timer subsystem, and what
is left of the call is kept until the last of them. The kernel's view of every
timer is the one that `timerlib_posix.c` gives it: `timer_create` at the
initialisation, `timer_settime` at the start and at the stop, `timer_delete` at
the destruction.
-/

namespace Excimer.Object

open Timer (Build TimerId Timespec effectiveInitial)

/-- `EXCIMER_REAL` and `EXCIMER_CPU`. -/
inductive EventType where
  | real
  | cpu
  deriving DecidableEq, Repr

/-- The integers that `setEventType` accepts: `EXCIMER_REAL` is 0 and
`EXCIMER_CPU` is 1. -/
def EventType.ofLong (value : Int) : Option EventType :=
  if value = 1 then some .cpu else if value = 0 then some .real else none

/-- The class of an object. It also names the function, `ExcimerTimer_event`
or `ExcimerProfiler_event`, that the timer of the object calls. -/
inductive Kind where
  | timer
  | profiler
  deriving DecidableEq, Repr

/-- A PHP value offered as a callback. The text is the one that
`zend_is_callable_ex` gives for a value that cannot be called. -/
inductive Value where
  | null
  | callable (function : Nat)
  | other (error : String)
  deriving DecidableEq, Repr

/-- The configuration that `ExcimerTimer_obj` and `ExcimerProfiler_obj` hold. -/
structure Obj where
  kind : Kind
  eventType : EventType := .real
  needReinit : Bool := true
  period : Timespec := ⟨0, 0⟩
  initial : Timespec := ⟨0, 0⟩
  callback : Option Nat := none
  deriving DecidableEq, Repr

/-- `ExcimerTimer_new` -/
def timerNew : Obj := { kind := .timer }

/-- `ExcimerProfiler_new`, with the default period of 0.1 s and a start that is
staggered at random within it. -/
def profilerNew (initial : Timespec) : Obj :=
  { kind := .profiler, period := ⟨0, 100000000⟩, initial }

/-- The `itimerspec` of a successful `timer_settime`, with the number of the
start that made the call. -/
structure Arming where
  call : Nat
  itInterval : Timespec
  itValue : Timespec
  deriving DecidableEq, Repr

/-- A timer that `timer_create` made and `timer_delete` has not deleted yet. -/
structure KernelTimer where
  clock : EventType
  armed : Option Arming := none
  deriving DecidableEq, Repr

/-- Which calls of the timer library succeed within one start: the
initialisation, the stop before a restart, the stop inside of
`excimer_timer_destroy` and the start. -/
structure Outcome where
  init : Bool := true
  stop : Bool := true
  halt : Bool := true
  start : Bool := true
  deriving DecidableEq, Repr

/-- What is left of a call that waits for `excimer_timer_destroy`. -/
inductive Rest where
  /-- `ExcimerTimer_start` or `ExcimerProfiler_start` from the initialisation on. -/
  | reinit (kind : Kind) (timer : TimerId) (outcome : Outcome)
  /-- The release of the memory after `free_object`. -/
  | release (timer : TimerId)
  deriving DecidableEq, Repr

def Rest.timer : Rest → TimerId
  | .reinit _ timer _ => timer
  | .release timer => timer

/-- An object is named by the address of its timer. `events` is the field
`callback` of the timer, and `calls` counts the starts. The last two fields are
a history that no step reads: the timers whose memory was cleared while they
were linked, and the released objects that were used again. -/
structure State where
  core : Timer.State
  live : List TimerId
  objects : TimerId → Obj
  events : TimerId → Option Kind
  kernel : TimerId → Option KernelTimer
  calls : Nat
  pending : Option Rest
  clobbered : List TimerId
  dangling : List TimerId

def State.initial : State where
  core := Timer.State.initial
  live := []
  objects := fun _ => timerNew
  events := fun _ => none
  kernel := fun _ => none
  calls := 0
  pending := none
  clobbered := []
  dangling := []

namespace State

/-- An access to the memory of an object. -/
def touch (s : State) (timer : TimerId) : State :=
  if timer ∈ s.live then s else { s with dangling := timer :: s.dangling }

def setObject (s : State) (timer : TimerId) (object : Obj) : State :=
  { s.touch timer with objects := Function.update s.objects timer object }

@[simp] theorem touch_core (s : State) (timer : TimerId) : (s.touch timer).core = s.core := by
  unfold touch
  split <;> rfl

@[simp] theorem touch_objects (s : State) (timer : TimerId) :
    (s.touch timer).objects = s.objects := by
  unfold touch
  split <;> rfl

@[simp] theorem touch_live (s : State) (timer : TimerId) : (s.touch timer).live = s.live := by
  unfold touch
  split <;> rfl

@[simp] theorem setObject_core (s : State) (timer : TimerId) (object : Obj) :
    (s.setObject timer object).core = s.core :=
  touch_core s timer

@[simp] theorem setObject_live (s : State) (timer : TimerId) (object : Obj) :
    (s.setObject timer object).live = s.live :=
  touch_live s timer

@[simp] theorem setObject_self (s : State) (timer : TimerId) (object : Obj) :
    (s.setObject timer object).objects timer = object := by
  simp [setObject]

theorem touch_of_mem {s : State} {timer : TimerId} (hmem : timer ∈ s.live) :
    s.touch timer = s := by
  simp [touch, hmem]

def setKernel (s : State) (timer : TimerId) (value : Option KernelTimer) : State :=
  { s with kernel := Function.update s.kernel timer value }

/-- `timer_settime` on the kernel timer of an object. -/
def settime (s : State) (timer : TimerId) (armed : Option Arming) : State :=
  s.setKernel timer ((s.kernel timer).map fun k => { k with armed })

def warn (s : State) (message : String) : State :=
  { s with core := s.core.record (.warning message) }

/-- Whether some pointer of the pending list is in, or leads to, this timer. -/
def linked (build : Build) (s : State) (timer : TimerId) : Bool :=
  (s.core.timers timer).pendingNext.isSome || (s.core.timers timer).pendingPrev.isSome ||
    (s.core.tls (build.tls (.php 0))).pendingHead == some timer

/-- A new object in zeroed memory. -/
def new (s : State) (timer : TimerId) (object : Obj) : State :=
  { s with
    core := s.core.setTimer timer {}
    live := timer :: s.live
    objects := Function.update s.objects timer object
    events := Function.update s.events timer none }

/-- The engine frees the memory of an object. -/
def release (s : State) (timer : TimerId) : State :=
  { s with live := s.live.erase timer }

/-- The methods `setEventType` of both classes. -/
def setEventType (s : State) (timer : TimerId) (value : Int) : State :=
  match EventType.ofLong value with
  | none => s.warn "Invalid event type"
  | some eventType =>
      s.setObject timer { s.objects timer with eventType, needReinit := true }

/-- `ExcimerTimer::setInterval` -/
def setInterval (s : State) (timer : TimerId) (initial : Timespec) : State :=
  s.setObject timer { s.objects timer with initial }

/-- The methods `setPeriod`. A profiler also staggers its next start. -/
def setPeriod (s : State) (timer : TimerId) (period initial : Timespec) : State :=
  match (s.objects timer).kind with
  | .timer => s.setObject timer { s.objects timer with period }
  | .profiler => s.setObject timer { s.objects timer with period, initial }

/-- `ExcimerTimer_set_callback`, with whether it succeeds. -/
def excimerTimerSetCallback (s : State) (timer : TimerId) : Value → State × Bool
  | .callable function =>
      (s.setObject timer { s.objects timer with callback := some function }, true)
  | .null => (s.warn "timer callback is not callable: no array or string given", false)
  | .other error => (s.warn ("timer callback is not callable: " ++ error), false)

/-- `ExcimerTimer::setCallback` -/
def setCallback (s : State) (timer : TimerId) (value : Value) : State :=
  if value = .null then
    s.setObject timer { s.objects timer with callback := none }
  else
    (s.excimerTimerSetCallback timer value).1

/-- `excimer_timer_stop` on the timer of an object. -/
def stopTimer (s : State) (timer : TimerId) (ok : Bool) : State :=
  let t := s.core.timers timer
  let next := { s with core := Timer.timerStop s.core timer ok }
  if t.isValid && t.isRunning && ok then next.settime timer none else next

/-- `ExcimerTimer_stop` and `ExcimerProfiler_stop` -/
def stopObject (s : State) (timer : TimerId) (ok : Bool) : State :=
  if (s.core.timers timer).isValid then s.stopTimer timer ok else s

/-- The methods `start` first stop a timer that is running. -/
def stopRunning (s : State) (timer : TimerId) (ok : Bool) : State :=
  if (s.core.timers timer).isRunning then s.stopObject timer ok else s

/-- `excimer_timer_start` with the period and the initial value of an object. -/
def startTimer (s : State) (timer : TimerId) (ok : Bool) : State :=
  let object := s.objects timer
  let value := effectiveInitial object.period object.initial
  let next := { s with
    core := Timer.timerStart s.core timer object.period object.initial ok }
  if (s.core.timers timer).isValid && !value.isZero && ok then
    next.settime timer (some ⟨s.calls, object.period, value⟩)
  else
    next

variable (build : Build)

/-- `excimer_timer_init` with the event type of an object. A kernel timer is
left behind only if the initialisation succeeds. -/
def initTimer (s : State) (kind : Kind) (timer : TimerId) (ok : Bool) : State :=
  { s with
    core := Timer.timerInit build 0 s.core timer ok
    events := Function.update s.events timer (some kind)
    kernel := Function.update s.kernel timer
      (if ok then some { clock := (s.objects timer).eventType } else none)
    clobbered := if s.linked build timer then timer :: s.clobbered else s.clobbered }

/-- `excimer_timer_destroy` up to the call of `timerlib_timer_destroy`. -/
def destroyTimer (s : State) (timer : TimerId) (halt : Bool) (rest : Rest) : State :=
  let next := { s with core := Timer.timerDestroy build 0 s.core timer, pending := some rest }
  if (s.core.timers timer).isRunning && halt then next.settime timer none else next

/-- The start functions from the call of `excimer_timer_init` on. -/
def reinit (s : State) (kind : Kind) (timer : TimerId) (outcome : Outcome) : State :=
  let s := s.initTimer build kind timer outcome.init
  if outcome.init then
    (s.setObject timer { s.objects timer with needReinit := false }).startTimer timer
      outcome.start
  else
    s

def beginStart (s : State) (timer : TimerId) : State :=
  { s.touch timer with calls := s.calls + 1 }

/-- `ExcimerTimer_start` and `ExcimerProfiler_start` differ in the event
function only. -/
def startObject (kind : Kind) (s : State) (timer : TimerId) (outcome : Outcome) : State :=
  let s := s.beginStart timer
  if (s.objects timer).needReinit || !(s.core.timers timer).isValid then
    if (s.core.timers timer).isValid then
      s.destroyTimer build timer outcome.halt (.reinit kind timer outcome)
    else
      s.reinit build kind timer outcome
  else
    s.startTimer timer outcome.start

def excimerTimerStart (s : State) (timer : TimerId) (outcome : Outcome) : State :=
  startObject build .timer s timer outcome

def excimerProfilerStart (s : State) (timer : TimerId) (outcome : Outcome) : State :=
  startObject build .profiler s timer outcome

/-- The methods `start`. -/
def start (s : State) (timer : TimerId) (outcome : Outcome) : State :=
  let s := s.stopRunning timer outcome.stop
  match (s.objects timer).kind with
  | .timer => s.excimerTimerStart build timer outcome
  | .profiler => s.excimerProfilerStart build timer outcome

/-- `ExcimerTimer_free_object` and `ExcimerProfiler_free_object`, followed by
the release of the memory. -/
def freeObject (s : State) (timer : TimerId) (halt : Bool) : State :=
  if (s.core.timers timer).isValid then
    s.destroyTimer build timer halt (.release timer)
  else
    s.release timer

/-- The call that waited for `excimer_timer_destroy` goes on. -/
def resume (s : State) : State :=
  match s.pending with
  | none => s
  | some (.reinit kind timer outcome) =>
      { s with pending := none }.reinit build kind timer outcome
  | some (.release timer) => { s with pending := none }.release timer

end State

inductive Action where
  /-- The random start of a profiler is an argument. -/
  | new (timer : TimerId) (kind : Kind) (initial : Timespec)
  | setEventType (timer : TimerId) (value : Int)
  | setInterval (timer : TimerId) (initial : Timespec)
  | setPeriod (timer : TimerId) (period initial : Timespec)
  | setCallback (timer : TimerId) (value : Value)
  | start (timer : TimerId) (outcome : Outcome)
  | stop (timer : TimerId) (ok : Bool)
  /-- The last reference to an object is gone. -/
  | free (timer : TimerId) (halt : Bool)
  /-- The kernel timer of an object expires. -/
  | expire (timer : TimerId)
  | destroyNext
  /-- A step of a handler thread or of the interrupt function. -/
  | core (action : Timer.Action)
  deriving DecidableEq, Repr

/-- The steps of the timer subsystem that no object asks for. -/
def background : Timer.Action → Bool
  | .handle _ _ => true
  | .store _ => true
  | .raise _ => true
  | .php number move =>
      number == 0 &&
        match move with
        | .interrupt => true
        | .dequeue => true
        | .call => true
        | .ret => true
        | _ => false

variable (build : Build)

/-- The next step of the `excimer_timer_destroy` that runs. `timer_delete` is
the end of the call of the timer library. -/
def destroyStep (s : State) : Option State :=
  (Timer.step build s.core (.php 0 .destroyNext)).map fun core =>
    let next := { s with core }
    match s.core.stack 0 with
    | .destroy timer .timerlib :: _ => next.setKernel timer none
    | .destroy _ .finish :: _ => next.resume build
    | _ => next

/-- PHP code runs and has a reference to the object. -/
def State.ready (s : State) (timer : TimerId) : Bool :=
  s.core.runsPhp 0 && decide (timer ∈ s.live)

def step (s : State) : Action → Option State
  | .new timer kind initial =>
      if s.core.runsPhp 0 ∧ 0 < timer ∧ timer < 2 ^ 64 ∧ timer ∉ s.live then
        match kind with
        | .timer => some (s.new timer timerNew)
        | .profiler => some (s.new timer (profilerNew initial))
      else
        none
  | .setEventType timer value =>
      if s.ready timer then some (s.setEventType timer value) else none
  | .setInterval timer initial =>
      if s.ready timer ∧ (s.objects timer).kind = .timer then
        some (s.setInterval timer initial)
      else
        none
  | .setPeriod timer period initial =>
      if s.ready timer then some (s.setPeriod timer period initial) else none
  | .setCallback timer value =>
      if s.ready timer ∧ (s.objects timer).kind = .timer then
        some (s.setCallback timer value)
      else
        none
  | .start timer outcome =>
      if s.ready timer then some (s.start build timer outcome) else none
  | .stop timer ok => if s.ready timer then some (s.stopObject timer ok) else none
  | .free timer halt =>
      if s.ready timer then some (s.freeObject build timer halt) else none
  | .expire timer =>
      match s.kernel timer with
      | some ⟨clock, some arming⟩ =>
          if arming.itInterval.isZero then
            some (s.setKernel timer (some ⟨clock, none⟩))
          else
            some s
      | _ => none
  | .destroyNext => destroyStep build s
  | .core action =>
      if background action then
        (Timer.step build s.core action).map fun core => { s with core }
      else
        none

/-- Everything that a step can do, with the guards under which it does it. A
destruction is split where the kernel or the waiting call is concerned. -/
inductive Moves (s : State) : Action → State → Prop
  | newTimer {timer : TimerId} {initial : Timespec} (hphp : s.core.runsPhp 0 = true)
      (haddress : 0 < timer ∧ timer < 2 ^ 64) (hfresh : timer ∉ s.live) :
      Moves s (.new timer .timer initial) (s.new timer timerNew)
  | newProfiler {timer : TimerId} {initial : Timespec} (hphp : s.core.runsPhp 0 = true)
      (haddress : 0 < timer ∧ timer < 2 ^ 64) (hfresh : timer ∉ s.live) :
      Moves s (.new timer .profiler initial) (s.new timer (profilerNew initial))
  | setEventType {timer : TimerId} {value : Int} {eventType : EventType}
      (hready : s.core.runsPhp 0 = true ∧ timer ∈ s.live)
      (hvalue : EventType.ofLong value = some eventType) :
      Moves s (.setEventType timer value)
        (s.setObject timer { s.objects timer with eventType, needReinit := true })
  | rejectEventType {timer : TimerId} {value : Int}
      (hready : s.core.runsPhp 0 = true ∧ timer ∈ s.live)
      (hvalue : EventType.ofLong value = none) :
      Moves s (.setEventType timer value) (s.warn "Invalid event type")
  | setInterval {timer : TimerId} {initial : Timespec}
      (hready : s.core.runsPhp 0 = true ∧ timer ∈ s.live)
      (hkind : (s.objects timer).kind = .timer) :
      Moves s (.setInterval timer initial) (s.setObject timer { s.objects timer with initial })
  | setPeriod {timer : TimerId} {period random initial : Timespec}
      (hready : s.core.runsPhp 0 = true ∧ timer ∈ s.live)
      (hkind : (s.objects timer).kind = .timer ∧ initial = (s.objects timer).initial ∨
        (s.objects timer).kind = .profiler ∧ initial = random) :
      Moves s (.setPeriod timer period random)
        (s.setObject timer { s.objects timer with period, initial })
  | setCallback {timer : TimerId} {value : Value} {callback : Option Nat}
      (hready : s.core.runsPhp 0 = true ∧ timer ∈ s.live)
      (hkind : (s.objects timer).kind = .timer)
      (hvalue : value = .null ∧ callback = none ∨
        ∃ function, value = .callable function ∧ callback = some function) :
      Moves s (.setCallback timer value) (s.setObject timer { s.objects timer with callback })
  | rejectCallback {timer : TimerId} {error : String}
      (hready : s.core.runsPhp 0 = true ∧ timer ∈ s.live)
      (hkind : (s.objects timer).kind = .timer) :
      Moves s (.setCallback timer (.other error))
        (s.warn ("timer callback is not callable: " ++ error))
  | start {timer : TimerId} {outcome : Outcome}
      (hready : s.core.runsPhp 0 = true ∧ timer ∈ s.live) :
      Moves s (.start timer outcome) (s.start build timer outcome)
  | stop {timer : TimerId} {ok : Bool} (hready : s.core.runsPhp 0 = true ∧ timer ∈ s.live) :
      Moves s (.stop timer ok) (s.stopObject timer ok)
  | free {timer : TimerId} {halt : Bool} (hready : s.core.runsPhp 0 = true ∧ timer ∈ s.live) :
      Moves s (.free timer halt) (s.freeObject build timer halt)
  | expire {timer : TimerId} {clock : EventType} {arming : Arming}
      (hkernel : s.kernel timer = some ⟨clock, some arming⟩)
      (honce : arming.itInterval.isZero = true) :
      Moves s (.expire timer) (s.setKernel timer (some ⟨clock, none⟩))
  | tick {timer : TimerId} {clock : EventType} {arming : Arming}
      (hkernel : s.kernel timer = some ⟨clock, some arming⟩)
      (hperiodic : arming.itInterval.isZero = false) : Moves s (.expire timer) s
  | delete {timer : TimerId} {rest : List Timer.Frame} {next : Timer.State}
      (hstack : s.core.stack 0 = .destroy timer .timerlib :: rest)
      (hcore : Timer.step build s.core (.php 0 .destroyNext) = some next)
      (hnext : Timer.destroyNext build 0 s.core timer rest .timerlib = some next) :
      Moves s .destroyNext (State.setKernel { s with core := next } timer none)
  | unlink {timer : TimerId} {rest : List Timer.Frame} {pc : Timer.DestroyPc}
      {next : Timer.State} (hstack : s.core.stack 0 = .destroy timer pc :: rest)
      (hfirst : pc ≠ .timerlib) (hlast : pc ≠ .finish)
      (hcore : Timer.step build s.core (.php 0 .destroyNext) = some next)
      (hnext : Timer.destroyNext build 0 s.core timer rest pc = some next) :
      Moves s .destroyNext { s with core := next }
  | finish {timer : TimerId} {rest : List Timer.Frame} {next : Timer.State}
      (hstack : s.core.stack 0 = .destroy timer .finish :: rest)
      (hcore : Timer.step build s.core (.php 0 .destroyNext) = some next)
      (hnext : Timer.destroyNext build 0 s.core timer rest .finish = some next) :
      Moves s .destroyNext (State.resume build { s with core := next })
  | core {action : Timer.Action} {next : Timer.State} (hbackground : background action = true)
      (hcore : Timer.step build s.core action = some next) :
      Moves s (.core action) { s with core := next }

section Inversion

variable {build : Build} {s t : State}

theorem destroyStep_moves (hstep : destroyStep build s = some t) :
    Moves build s .destroyNext t := by
  obtain ⟨next, hcore, rfl⟩ := Option.map_eq_some_iff.mp hstep
  obtain ⟨_, hnext⟩ := Option.ite_none_right_eq_some.mp hcore
  simp only [Timer.phpStep] at hnext
  split at hnext
  case h_2 => cases hnext
  case h_1 timer pc rest hstack =>
    dsimp only
    rw [hstack]
    cases pc with
    | timerlib => exact .delete hstack hcore hnext
    | lock => exact .unlink hstack (by simp) (by simp) hcore hnext
    | remove => exact .unlink hstack (by simp) (by simp) hcore hnext
    | unlock => exact .unlink hstack (by simp) (by simp) hcore hnext
    | finish => exact .finish hstack hcore hnext

theorem setCallback_moves {timer : TimerId} {value : Value}
    (hready : s.core.runsPhp 0 = true ∧ timer ∈ s.live)
    (hkind : (s.objects timer).kind = .timer) :
    Moves build s (.setCallback timer value) (s.setCallback timer value) := by
  cases value with
  | null => exact .setCallback hready hkind (Or.inl ⟨rfl, rfl⟩)
  | callable function => exact .setCallback hready hkind (Or.inr ⟨function, rfl, rfl⟩)
  | other error => exact .rejectCallback hready hkind

theorem setPeriod_moves {timer : TimerId} {period initial : Timespec}
    (hready : s.core.runsPhp 0 = true ∧ timer ∈ s.live) :
    Moves build s (.setPeriod timer period initial) (s.setPeriod timer period initial) := by
  unfold State.setPeriod
  split
  case h_1 hkind => exact .setPeriod hready (Or.inl ⟨hkind, rfl⟩)
  case h_2 hkind => exact .setPeriod hready (Or.inr ⟨hkind, rfl⟩)

theorem step_moves {action : Action} (hstep : step build s action = some t) :
    Moves build s action t := by
  have hready {timer : TimerId} (hguard : s.ready timer = true) :
      s.core.runsPhp 0 = true ∧ timer ∈ s.live := by
    simpa [State.ready] using hguard
  cases action with
  | new timer kind initial =>
      obtain ⟨⟨hphp, hpos, hlt, hfresh⟩, hnew⟩ := Option.ite_none_right_eq_some.mp hstep
      cases kind with
      | timer =>
          cases hnew
          exact .newTimer hphp ⟨hpos, hlt⟩ hfresh
      | profiler =>
          cases hnew
          exact .newProfiler hphp ⟨hpos, hlt⟩ hfresh
  | setEventType timer value =>
      obtain ⟨hguard, heq⟩ := Option.ite_none_right_eq_some.mp hstep
      cases heq
      unfold State.setEventType
      split
      case h_1 hvalue => exact .rejectEventType (hready hguard) hvalue
      case h_2 hvalue => exact .setEventType (hready hguard) hvalue
  | setInterval timer initial =>
      obtain ⟨⟨hguard, hkind⟩, heq⟩ := Option.ite_none_right_eq_some.mp hstep
      cases heq
      exact .setInterval (hready hguard) hkind
  | setPeriod timer period initial =>
      obtain ⟨hguard, heq⟩ := Option.ite_none_right_eq_some.mp hstep
      cases heq
      exact setPeriod_moves (hready hguard)
  | setCallback timer value =>
      obtain ⟨⟨hguard, hkind⟩, heq⟩ := Option.ite_none_right_eq_some.mp hstep
      cases heq
      exact setCallback_moves (hready hguard) hkind
  | start timer outcome =>
      obtain ⟨hguard, heq⟩ := Option.ite_none_right_eq_some.mp hstep
      cases heq
      exact .start (hready hguard)
  | stop timer ok =>
      obtain ⟨hguard, heq⟩ := Option.ite_none_right_eq_some.mp hstep
      cases heq
      exact .stop (hready hguard)
  | free timer halt =>
      obtain ⟨hguard, heq⟩ := Option.ite_none_right_eq_some.mp hstep
      cases heq
      exact .free (hready hguard)
  | expire timer =>
      simp only [step] at hstep
      split at hstep
      case h_2 => cases hstep
      case h_1 clock arming hkernel =>
        split at hstep
        case isTrue honce =>
          cases hstep
          exact .expire hkernel honce
        case isFalse hperiodic =>
          cases hstep
          exact .tick hkernel (Bool.eq_false_iff.mpr hperiodic)
  | destroyNext => exact destroyStep_moves hstep
  | core action =>
      obtain ⟨hbackground, hcore⟩ := Option.ite_none_right_eq_some.mp hstep
      obtain ⟨next, hnext, rfl⟩ := Option.map_eq_some_iff.mp hcore
      exact .core hbackground hnext

end Inversion

end Excimer.Object
