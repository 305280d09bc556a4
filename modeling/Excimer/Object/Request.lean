import Excimer.Object.Lifecycle
import Excimer.Object.Timeout

/-!
The requests that a process serves one after another, in the build without thread
safety. `excimer_timer_thread_init` overwrites `excimer_timer_tls` at the start of
every request, and `excimer_timer_thread_shutdown` destroys the mutex at the end,
after the engine has freed all objects. Handler threads do not know about requests.
What follows says that they do not have to: nothing is left of a request for the next
one to overwrite.

The exception is `excimer_set_timeout` with a callback that cannot be called. It
starts a timer in an object that it has freed, and this timer outlives the request.
-/

namespace Excimer.Object

open Timer

/-- What can go wrong at the end of a request or after it. -/
inductive Trouble where
  | warning (message : String)
  /-- `pthread_mutex_destroy` fails for a mutex that is locked. -/
  | mutexBusy
  /-- A thread locks the mutex that was destroyed. -/
  | mutexGone
  deriving DecidableEq, Repr

structure Worker where
  objects : State
  inRequest : Bool
  /-- Whether the mutex is initialised. -/
  mutexReady : Bool
  /-- A history that no step reads, newest first. -/
  troubles : List Trouble

namespace Worker

/-- The process before its first request. -/
def initial : Worker := ⟨State.initial, false, false, []⟩

/-- `excimer_timer_thread_init` -/
def threadInit (s : State) : State :=
  { s with core := { s.core with tls := Function.update s.core.tls (.php 0) {} } }

/-- `excimer_timer_thread_shutdown` -/
def threadShutdown (w : Worker) : Worker :=
  let tls := w.objects.core.tls (.php 0)
  if tls.timersActive ≠ 0 then
    { w with troubles := .warning "Timer still active at thread termination" :: w.troubles }
  else if tls.mutex ≠ none then { w with troubles := .mutexBusy :: w.troubles }
  else { w with mutexReady := false }

inductive Action where
  /-- `RINIT` -/
  | activate
  /-- The engine has freed the objects and calls the handler for the end of the
  request. -/
  | deactivate
  | act (action : Object.Action)
  | setTimeout (timer : TimerId) (value : Value) (initial : Timespec) (outcome : Outcome)
  deriving DecidableEq, Repr

/-- The steps of handler threads. -/
def ofHandler : Object.Action → Bool
  | .core (.handle _ _) | .core (.store _) => true
  | _ => false

/-- The steps that may lock the mutex. -/
def locks : Object.Action → Bool
  | .core (.handle _ _) | .core (.php _ .dequeue) | .destroyNext => true
  | _ => false

def step (w : Worker) : Action → Option Worker
  | .activate =>
      if w.inRequest then none
      else some { w with objects := threadInit w.objects, inRequest := true, mutexReady := true }
  | .deactivate =>
      if w.inRequest ∧ w.objects.core.stack 0 = [] ∧ w.objects.live = [] then
        some { w.threadShutdown with inRequest := false }
      else none
  | .act action =>
      if w.inRequest || ofHandler action then
        (Object.step .nonZts w.objects action).map fun objects =>
          { w with
            objects := objects
            troubles :=
              if locks action && !w.mutexReady then .mutexGone :: w.troubles else w.troubles }
      else none
  | .setTimeout timer value initial outcome =>
      if w.inRequest ∧ w.objects.core.runsPhp 0 = true ∧ 0 < timer ∧ timer < 2 ^ 64 ∧
          timer ∉ w.objects.live then
        some { w with
          objects := (excimerSetTimeout .nonZts w.objects timer value initial outcome).1 }
      else none

/-- `excimer_set_timeout` is called with functions only. -/
def Callable : Action → Prop
  | .setTimeout _ value _ _ => value.isCallable = true
  | _ => True

instance (action : Action) : Decidable (Callable action) :=
  match action with
  | .activate => instDecidableTrue
  | .deactivate => instDecidableTrue
  | .act _ => instDecidableTrue
  | .setTimeout _ _ _ _ => inferInstanceAs (Decidable (_ = true))

/-- What a run of the objects, without any requests, can lead to. -/
abbrev Unbroken (s : State) : Prop :=
  Transition.Reachable (Object.step .nonZts) (· = State.initial) s

section Idle

variable {s : State}

theorem unbroken_inv (hunbroken : Unbroken s) :
    Object.Inv .nonZts (fun core => ∃ order, Timer.Inv core order) s := by
  obtain ⟨start, actions, rfl, hrun⟩ := hunbroken
  exact run_inv Timer.nonZts_tidy hrun

/-- Without objects and with an idle PHP thread there is nothing in
`excimer_timer_tls`, and there are no handler threads. -/
theorem idle (hunbroken : Unbroken s) (hstack : s.core.stack 0 = []) (hlive : s.live = []) :
    s.core.tls (.php 0) = {} ∧ ∀ timer, s.core.handlers timer = none := by
  have hinv := unbroken_inv hunbroken
  obtain ⟨order, hcore⟩ := hinv.core
  have hinvalid : ∀ timer, (s.core.timers timer).isValid = false := by
    intro timer
    refine Bool.eq_false_iff.mpr fun hvalid => ?_
    have hmem := hinv.live timer hvalid
    rw [hlive] at hmem
    cases hmem
  have hmutex : (s.core.tls (.php 0)).mutex = none := by
    rw [hcore.mutex, hstack]
    rfl
  have hhead : (s.core.tls (.php 0)).pendingHead = none := by
    rw [Option.eq_none_iff_forall_ne_some]
    intro timer hhead
    have hlisted := (hcore.onPendingList_iff timer).mp ⟨timer, hhead, .refl⟩
    exact absurd (hcore.listed timer hlisted).1 (Bool.eq_false_iff.mp (hinvalid timer))
  have hactive : (s.core.tls (.php 0)).timersActive = 0 := by
    have hcount := hinv.active
    rw [State.validCount, hlive, List.countP_nil, hstack] at hcount
    rw [← UInt64.toNat_inj, UInt64.toNat_zero]
    exact Nat.eq_zero_of_add_eq_zero_right hcount
  refine ⟨?_, fun timer => ?_⟩
  · cases htls : s.core.tls (.php 0) with
    | mk mutex head active =>
        rw [htls] at hmutex hhead hactive
        subst hmutex hhead hactive
        rfl
  · cases hhandler : s.core.handlers timer with
    | none => rfl
    | some handler =>
        have hserved := (hcore.served timer).mp (by rw [hhandler]; rfl)
        exact absurd hserved.1 (Bool.eq_false_iff.mp (hinvalid timer))

end Idle

/-- The calls that a step of the process stands for. -/
def Action.calls : Action → List Object.Action
  | .activate | .deactivate => []
  | .act action => [action]
  | .setTimeout timer value initial outcome =>
      [.new timer .timer ⟨0, 0⟩, .setCallback timer value, .setInterval timer initial,
        .start timer outcome]

structure Inv (w : Worker) : Prop where
  unbroken : Unbroken w.objects
  troubles : w.troubles = []
  during : w.inRequest = true → w.mutexReady = true
  between : w.inRequest = false → w.objects.core.stack 0 = [] ∧ w.objects.live = []

section Steps

variable {w next : Worker}

theorem initial_inv : Inv initial where
  unbroken := .start rfl
  troubles := rfl
  during hrequest := by cases hrequest
  between _ := ⟨rfl, rfl⟩

/-- The start of a request overwrites nothing. -/
theorem Inv.threadInit_eq (hinv : Inv w) (hbetween : w.inRequest = false) :
    threadInit w.objects = w.objects := by
  obtain ⟨hstack, hlive⟩ := hinv.between hbetween
  rw [threadInit, ← (idle hinv.unbroken hstack hlive).1, Function.update_eq_self]

/-- The end of a request finds no timer and an unlocked mutex. -/
theorem Inv.threadShutdown_eq (hinv : Inv w) (hstack : w.objects.core.stack 0 = [])
    (hlive : w.objects.live = []) : w.threadShutdown = { w with mutexReady := false } := by
  rw [threadShutdown, (idle hinv.unbroken hstack hlive).1]
  rfl

/-- Between requests no thread of a timer is left. -/
theorem Inv.act_between (hinv : Inv w) (hbetween : w.inRequest = false) (action : Object.Action) :
    step w (.act action) = none := by
  obtain ⟨hstack, hlive⟩ := hinv.between hbetween
  have hnone := (idle hinv.unbroken hstack hlive).2
  cases hhandler : ofHandler action with
  | false => simp [step, hbetween, hhandler]
  | true =>
      unfold ofHandler at hhandler
      split at hhandler
      · simp [step, Object.step, background, Timer.step, hnone]
      · simp [step, Object.step, background, Timer.step, hnone]
      · cases hhandler

theorem step_inv (hinv : Inv w) {action : Action} (hcallable : Callable action)
    (hstep : step w action = some next) :
    Inv next ∧ Transition.run (Object.step .nonZts) w.objects action.calls =
      some next.objects := by
  cases action with
  | activate =>
      obtain ⟨hbetween, hnext⟩ := Option.ite_none_left_eq_some.mp hstep
      have hsame := hinv.threadInit_eq (Bool.eq_false_iff.mpr hbetween)
      obtain rfl := Option.some.inj hnext
      refine ⟨⟨?_, hinv.troubles, fun _ => rfl, fun hfalse => by cases hfalse⟩, ?_⟩
      · exact hsame.symm ▸ hinv.unbroken
      · exact congrArg some hsame.symm
  | deactivate =>
      obtain ⟨⟨-, hstack, hlive⟩, hnext⟩ := Option.ite_none_right_eq_some.mp hstep
      rw [hinv.threadShutdown_eq hstack hlive] at hnext
      obtain rfl := Option.some.inj hnext
      refine ⟨⟨hinv.unbroken, hinv.troubles, ?_, fun _ => ⟨hstack, hlive⟩⟩, rfl⟩
      intro hfalse
      cases hfalse
  | act action =>
      cases hrequest : w.inRequest with
      | false =>
          rw [hinv.act_between hrequest] at hstep
          cases hstep
      | true =>
          have hready := hinv.during hrequest
          simp only [step, hrequest, Bool.true_or, if_true, hready, Bool.not_true, Bool.and_false,
            Bool.false_eq_true, if_false] at hstep
          obtain ⟨objects, hobjects, rfl⟩ := Option.map_eq_some_iff.mp hstep
          refine ⟨⟨hinv.unbroken.step_from hobjects, hinv.troubles, fun _ => rfl, ?_⟩, ?_⟩
          · intro hfalse
            cases hfalse
          · simp [Action.calls, Transition.run, hobjects]
  | setTimeout timer value initial outcome =>
      obtain ⟨⟨hrequest, hphp, hpositive, hbound, hfresh⟩, hnext⟩ :=
        Option.ite_none_right_eq_some.mp hstep
      obtain rfl := Option.some.inj hnext
      obtain ⟨function, rfl⟩ : ∃ function, value = .callable function := by
        cases value with
        | callable function => exact ⟨function, rfl⟩
        | null => cases hcallable
        | other error => cases hcallable
      have hcalls : Transition.run (Object.step .nonZts) w.objects _ = _ :=
        setTimeout_started hphp ⟨hpositive, hbound⟩ hfresh function initial outcome
      refine ⟨⟨hinv.unbroken.run_from hcalls, hinv.troubles, hinv.during, ?_⟩, hcalls⟩
      intro hbetween
      cases hrequest.symm.trans hbetween

theorem run_inv (hinv : Inv w) {actions : List Action}
    (hcallable : ∀ action ∈ actions, Callable action)
    (hrun : Transition.run step w actions = some next) :
    Inv next ∧ Transition.run (Object.step .nonZts) w.objects (actions.flatMap Action.calls) =
      some next.objects := by
  induction actions generalizing w with
  | nil =>
      obtain rfl := Option.some.inj hrun
      exact ⟨hinv, rfl⟩
  | cons action rest ih =>
      obtain ⟨mid, hstep, hrest⟩ := Transition.run_cons hrun
      rw [List.forall_mem_cons] at hcallable
      obtain ⟨hmid, hfirst⟩ := step_inv hinv hcallable.1 hstep
      obtain ⟨hnext, hlater⟩ := ih hmid hcallable.2 hrest
      refine ⟨hnext, ?_⟩
      rw [List.flatMap_cons, Transition.run_append, hfirst]
      exact hlater

end Steps

/-- However many requests a process serves, its objects do what they would do in one
long request, as long as `excimer_set_timeout` gets callbacks that can be called. No
timer is found active at the end of a request, the mutex is never destroyed while it
is locked nor locked after that, and between two requests `excimer_timer_tls` is as it
was before the first one and nothing can happen to the objects. -/
theorem requests_seamless {w : Worker} {actions : List Action}
    (hrun : Transition.run step initial actions = some w)
    (hcallable : ∀ action ∈ actions, Callable action) :
    Transition.run (Object.step .nonZts) State.initial (actions.flatMap Action.calls) =
        some w.objects ∧
      w.troubles = [] ∧
      (w.inRequest = false → w.objects.core.tls (.php 0) = {} ∧
        (∀ timer, w.objects.core.handlers timer = none) ∧
        ∀ action, step w (.act action) = none) := by
  obtain ⟨hinv, hobjects⟩ := run_inv initial_inv hcallable hrun
  refine ⟨hobjects, hinv.troubles, fun hbetween => ?_⟩
  obtain ⟨hstack, hlive⟩ := hinv.between hbetween
  obtain ⟨htls, hhandlers⟩ := idle hinv.unbroken hstack hlive
  exact ⟨htls, hhandlers, hinv.act_between hbetween⟩

-- A callback that cannot be called: all objects have been freed at the end of the
-- request, and one timer is active.
example : (Transition.run step initial
    [.activate, .setTimeout 5 .null ⟨1, 0⟩ {}, .deactivate]).map Worker.troubles =
      some [.warning "Timer still active at thread termination"] := by decide

/-- A timer expires in the first request and is freed with the event still pending.
The second request has a timer at the same address. -/
def twoRequests : List Action :=
  [.activate, .setTimeout 5 (.callable 1) ⟨1, 0⟩ {},
   .act (.core (.handle 5 0)), .act (.core (.store 5)),
    .act (.free 5 true), .act .destroyNext, .act .destroyNext, .act .destroyNext,
    .act .destroyNext, .act .destroyNext, .deactivate, .activate, .act (.new 5 .timer ⟨0, 0⟩),
    .act (.setPeriod 5 ⟨1, 0⟩ ⟨0, 0⟩), .act (.start 5 {}), .act (.core (.handle 5 0))]

theorem requests_seamless_twoRequests :
    ∃ w, Transition.run step initial twoRequests = some w ∧ w.troubles = [] ∧
      (w.objects.core.tls (.php 0)).timersActive = 1 ∧
      (w.objects.core.timers 5).eventCount = 1 := by
  obtain ⟨w, hrun, hcheck⟩ := Transition.run_check step initial twoRequests
    (fun w => (w.objects.core.tls (.php 0)).timersActive == 1 &&
      (w.objects.core.timers 5).eventCount == 1) (by decide)
  simp only [Bool.and_eq_true, beq_iff_eq] at hcheck
  exact ⟨w, hrun, (requests_seamless hrun (by decide)).2.1, hcheck⟩

end Worker

end Excimer.Object
