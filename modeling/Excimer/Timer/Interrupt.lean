import Excimer.Timer.Delivery

/-!
`excimer_timer_interrupt` for the timers of PHP objects, whose native callback
is `ExcimerTimer_event`. A user callback may throw, and then the engine does
not run another function until the exception has been caught. The loop goes on
all the same: it dequeues the remaining timers and clears their counts, and
`zend_call_function` does nothing for them.
-/

namespace Excimer.Timer

open CircularList

/-- The field `z_callback` of an `ExcimerTimer` object. -/
inductive Callback where
  /-- `IS_UNDEF` or `IS_NULL`. -/
  | unset
  /-- `zend_fcall_info_init` fails with this message. -/
  | uncallable (message : String)
  | callable
  deriving DecidableEq, Repr

/-- What the PHP side does during one interrupt: the callbacks that are set,
whether a callback throws when it is called with a count, and the outcomes of
`timerlib_timer_stop`. -/
structure Script where
  callback : TimerId → Callback
  throws : TimerId → Int → Bool
  stops : TimerId → Bool

/-- The timers together with what matters here of the state of the engine:
whether an exception is pending, and which user callbacks have been run with
which counts, latest first. -/
structure Engine where
  timers : State
  exception : Bool
  ran : List (TimerId × Int)

/-- `zend_call_function` does not run the function when an exception is pending. -/
def Engine.callFunction (e : Engine) (timer : TimerId) (count : Int) (throws : Bool) : Engine :=
  if e.exception then e else { e with exception := throws, ran := (timer, count) :: e.ran }

/-- `ExcimerTimer_stop` -/
def excimerTimerStop (s : State) (timer : TimerId) (ok : Bool) : State :=
  if (s.timers timer).isValid then timerStop s timer ok else s

/-- `ExcimerTimer_event` -/
def excimerTimerEvent (script : Script) (timer : TimerId) (count : Int) (e : Engine) : Engine :=
  match script.callback timer with
  | .unset => e
  | .uncallable message =>
      let s := e.timers.record (.warning
        ("ExcimerTimer callback is not callable (during event): " ++ message))
      { e with timers := excimerTimerStop s timer (script.stops timer) }
  | .callable => e.callFunction timer count (script.throws timer count)

/-- The loop of `excimer_timer_interrupt` on a PHP thread. The fuel bounds the
number of dequeues. -/
def timerInterrupt (build : Build) (php : Nat) (script : Script) : Nat → Engine → Option Engine
  | 0, _ => none
  | fuel + 1, e =>
      match pendingDequeue build (.php php) e.timers with
      | none => none
      | some (s, none) => some { e with timers := s }
      | some (s, some (timer, count)) =>
          timerInterrupt build php script fuel
            (excimerTimerEvent script timer count { e with timers := s })

/-- The user callbacks that get to run, given whether an exception is pending. -/
def called (script : Script) : Bool → List (TimerId × Int) → List (TimerId × Int)
  | true, _ => []
  | false, [] => []
  | false, (timer, count) :: rest =>
      (timer, count) :: called script (script.throws timer count) rest

theorem called_true (script : Script) (queue : List (TimerId × Int)) :
    called script true queue = [] := by
  cases queue <;> rfl

/-- Everybody is called exactly when nobody but the last throws. -/
theorem called_all_iff (script : Script) (exception : Bool) {queue : List (TimerId × Int)}
    (hne : queue ≠ []) (hnodup : queue.Nodup) :
    (∀ entry ∈ queue, entry ∈ called script exception queue) ↔
      exception = false ∧ ∀ entry ∈ queue.dropLast, script.throws entry.1 entry.2 = false := by
  induction queue generalizing exception with
  | nil => exact absurd rfl hne
  | cons first rest ih =>
      obtain ⟨timer, count⟩ := first
      cases exception with
      | true =>
          rw [called_true]
          constructor
          · intro hall
            exact absurd (hall (timer, count) (List.mem_cons_self ..)) (List.not_mem_nil)
          · rintro ⟨hfalse, -⟩
            cases hfalse
      | false =>
          obtain ⟨hfresh, hrest⟩ := List.nodup_cons.mp hnodup
          cases rest with
          | nil => simp [called]
          | cons second others =>
              have hiff := ih (script.throws timer count) (by simp) hrest
              have hquiet : (∀ entry ∈ (timer, count) :: (second :: others).dropLast,
                  script.throws entry.1 entry.2 = false) ↔ script.throws timer count = false ∧
                    ∀ entry ∈ (second :: others).dropLast,
                      script.throws entry.1 entry.2 = false := List.forall_mem_cons
              rw [List.dropLast_cons_of_ne_nil (by simp), hquiet, ← hiff]
              simp only [called, true_and]
              constructor
              · intro hall entry hmem
                have hne : entry ≠ (timer, count) := fun heq => hfresh (heq ▸ hmem)
                have hin := hall entry (List.mem_cons_of_mem _ hmem)
                exact (List.mem_cons.mp hin).resolve_left hne
              · intro hall entry hmem
                rcases List.mem_cons.mp hmem with rfl | hrest
                · exact List.mem_cons_self ..
                · exact List.mem_cons_of_mem _ (hall entry hrest)

section Loop

variable {build : Build} {php : Nat} {script : Script}

/-- The pending timers with their counts. -/
def queueOf (s : State) (order : List TimerId) : List (TimerId × Int) :=
  order.map fun timer => (timer, (s.timers timer).eventCount)

/-- The loop returns with an empty list and cleared counts, whoever throws. -/
theorem timerInterrupt_spec {e : Engine} {order : List TimerId} {fuel : Nat}
    (hring : (e.timers.links (build.tls (.php php))).Represents order)
    (hfree : (e.timers.tls (build.tls (.php php))).mutex = none)
    (hcallable : ∀ timer ∈ order, script.callback timer = .callable)
    (hfuel : order.length < fuel) :
    ∃ final, timerInterrupt build php script fuel e = some final ∧
      final.ran = (called script e.exception (queueOf e.timers order)).reverse ++ e.ran ∧
      (final.timers.links (build.tls (.php php))).Represents [] := by
  induction order generalizing e fuel with
  | nil =>
      obtain ⟨more, rfl⟩ : ∃ more, fuel = more + 1 := ⟨fuel - 1, by simp at hfuel; omega⟩
      refine ⟨e, ?_, ?_, hring⟩
      · simp only [timerInterrupt, pendingDequeue_nil hring hfree]
      · cases e.exception <;> simp [queueOf, called]
  | cons timer others ih =>
      obtain ⟨more, rfl⟩ : ∃ more, fuel = more + 1 := ⟨fuel - 1, by simp at hfuel; omega⟩
      obtain ⟨s, hdequeue, hring', hfree', _, _, _, _, htimers⟩ := pendingDequeue_cons hring hfree
      have hnodup := List.nodup_cons.mp hring.nodup
      have hqueue : queueOf s others = queueOf e.timers others := by
        apply List.map_congr_left
        intro other hmem
        have hne : other ≠ timer := fun heq => hnodup.1 (heq ▸ hmem)
        rw [(htimers other).2.2.2.2, if_neg hne]
      set count := (e.timers.timers timer).eventCount with hcount
      have hevent : excimerTimerEvent script timer count { e with timers := s } =
          Engine.callFunction { e with timers := s } timer count (script.throws timer count) := by
        simp only [excimerTimerEvent, hcallable timer (List.mem_cons_self ..)]
      have hcall : (Engine.callFunction { e with timers := s } timer count
          (script.throws timer count)).timers = s := by
        unfold Engine.callFunction
        split <;> rfl
      have hlength : others.length < more := by simpa using hfuel
      obtain ⟨final, hfinal, hran, hempty⟩ := ih (hcall.symm ▸ hring') (hcall.symm ▸ hfree')
        (fun other hmem => hcallable other (List.mem_cons_of_mem _ hmem)) hlength
      refine ⟨final, ?_, ?_, hempty⟩
      · simp only [timerInterrupt, hdequeue]
        rw [hevent]
        exact hfinal
      · rw [hran, hcall, hqueue]
        cases hexception : e.exception with
        | true => simp [Engine.callFunction, called_true]
        | false => simp [Engine.callFunction, called, queueOf, ← hcount]

end Loop

section Refinement

/-- Two states with the same timers and thread-local data, whatever else they
record. -/
def SameTimers (s s' : State) : Prop := s.timers = s'.timers ∧ s.tls = s'.tls

theorem SameTimers.dequeue {build : Build} {thread : Thread} {s s' next : State}
    {result : Option (TimerId × Int)} (h : SameTimers s s')
    (hdequeue : pendingDequeue build thread s = some (next, result)) :
    ∃ next', pendingDequeue build thread s' = some (next', result) ∧ SameTimers next next' ∧
      next'.stack = s'.stack := by
  obtain ⟨timers, tls, _, _, _, _, _⟩ := s
  obtain ⟨timers', tls', _, _, _, _, _⟩ := s'
  obtain ⟨htimers, htls⟩ : timers = timers' ∧ tls = tls' := h
  subst htimers htls
  unfold pendingDequeue at hdequeue ⊢
  obtain ⟨hfree, hdequeue⟩ := Option.ite_none_right_eq_some.mp hdequeue
  obtain ⟨⟨links, taken⟩, hlinks, heq⟩ := Option.map_eq_some_iff.mp hdequeue
  simp only [State.links] at hlinks hfree ⊢
  rw [if_pos hfree, hlinks]
  cases taken with
  | none =>
      cases heq
      exact ⟨_, rfl, ⟨rfl, rfl⟩, rfl⟩
  | some timer =>
      cases heq
      exact ⟨_, rfl, ⟨rfl, rfl⟩, rfl⟩

theorem timerStop_same {s s' : State} (h : SameTimers s s') (timer : TimerId) (ok : Bool) :
    SameTimers (timerStop s timer ok) (timerStop s' timer ok) := by
  obtain ⟨htimers, htls⟩ := h
  unfold timerStop
  rw [htimers]
  repeat' split
  · exact ⟨htimers, htls⟩
  · exact ⟨by simp [State.setRunning, State.setTimer, State.record, htimers], htls⟩
  · exact ⟨htimers, htls⟩
  · exact ⟨htimers, htls⟩

theorem timerStop_stack (s : State) (timer : TimerId) (ok : Bool) :
    (timerStop s timer ok).stack = s.stack := by
  unfold timerStop
  repeat' split
  all_goals rfl

theorem run_php {s next : State} {move : Move} (hmove : phpStep .nonZts 0 s move = some next)
    (actions : List Action) : Transition.run (step .nonZts) s (.php 0 move :: actions) =
      Transition.run (step .nonZts) next actions := by
  have hstep : step .nonZts s (.php 0 move) = some next := hmove
  simp only [Transition.run, hstep, Option.bind_some]

/-- While a callback runs, `ExcimerTimer_event` does what PHP code may do. -/
theorem event_run (script : Script) (timer : TimerId) (count : Int) {e : Engine} {s : State}
    {other : TimerId} {rest : List Frame} (hsame : SameTimers e.timers s)
    (hstack : s.stack 0 = .callback other :: rest) :
    ∃ actions next, Transition.run (step .nonZts) s actions = some next ∧
      SameTimers (excimerTimerEvent script timer count e).timers next ∧
      next.stack 0 = .callback other :: rest := by
  cases hcallback : script.callback timer with
  | unset => exact ⟨[], s, rfl, by simpa [excimerTimerEvent, hcallback] using hsame, hstack⟩
  | callable =>
      refine ⟨[], s, rfl, ?_, hstack⟩
      simp only [excimerTimerEvent, hcallback, Engine.callFunction]
      split <;> exact hsame
  | uncallable message =>
      simp only [excimerTimerEvent, hcallback, excimerTimerStop]
      split
      · have hstop : phpStep .nonZts 0 s (.stop timer (script.stops timer)) =
            some (timerStop s timer (script.stops timer)) := by
          simp only [phpStep, State.runsPhp, hstack, if_true]
        refine ⟨[.php 0 (.stop timer (script.stops timer))], _, run_php hstop [], ?_, ?_⟩
        · apply timerStop_same
          exact hsame
        · rw [timerStop_stack]
          exact hstack
      · exact ⟨[], s, rfl, hsame, hstack⟩

/-- The function is a run of the system of threads in which nobody else moves:
the loop that has been entered in `s` leaves the same timers behind. -/
theorem timerInterrupt_run {script : Script} {fuel : Nat} {e final : Engine} {s : State}
    {rest : List Frame} (hsame : SameTimers e.timers s) (hstack : s.stack 0 = .drain :: rest)
    (hfinal : timerInterrupt .nonZts 0 script fuel e = some final) :
    ∃ actions next, Transition.run (step .nonZts) s actions = some next ∧
      SameTimers final.timers next ∧ next.stack 0 = rest := by
  induction fuel generalizing e s with
  | zero => cases hfinal
  | succ fuel ih =>
      simp only [timerInterrupt] at hfinal
      split at hfinal
      case h_1 => cases hfinal
      case h_2 after hdequeue =>
        cases hfinal
        obtain ⟨after', hdequeue', hsame', _⟩ := hsame.dequeue hdequeue
        have hleave : phpStep .nonZts 0 s .dequeue = some (after'.setStack 0 rest) := by
          simp only [phpStep, hstack, hdequeue', Option.map_some]
        exact ⟨[.php 0 .dequeue], _, run_php hleave [], hsame', by simp [State.setStack]⟩
      case h_3 after timer count hdequeue =>
        obtain ⟨after', hdequeue', hsame', _⟩ := hsame.dequeue hdequeue
        -- The three moves before the event: dequeue, call, and later the return.
        set delivering := after'.setStack 0 (.deliver timer count :: rest) with hdelivering
        have hdeliver : phpStep .nonZts 0 s .dequeue = some delivering := by
          simp only [phpStep, hstack, hdequeue', Option.map_some, hdelivering]
        set calling := (delivering.setStack 0 (.callback timer :: rest)).record
          (.callback timer count) with hcalling
        have htop : delivering.stack 0 = .deliver timer count :: rest := by
          simp [hdelivering, State.setStack]
        have hcall : phpStep .nonZts 0 delivering .call = some calling := by
          simp only [phpStep, htop, hcalling]
        have hcalled : calling.stack 0 = .callback timer :: rest := by
          simp [hcalling, State.setStack, State.record]
        have hentered : SameTimers ({ e with timers := after } : Engine).timers calling := hsame'
        obtain ⟨inner, back, hinner, hback, hbackStack⟩ :=
          event_run script timer count hentered hcalled
        have hret : phpStep .nonZts 0 back .ret = some (back.setStack 0 (.drain :: rest)) := by
          simp only [phpStep, hbackStack]
        have hdrain : (back.setStack 0 (.drain :: rest)).stack 0 = .drain :: rest := by
          simp [State.setStack]
        have hagain : SameTimers (excimerTimerEvent script timer count
            { e with timers := after }).timers (back.setStack 0 (.drain :: rest)) := hback
        obtain ⟨more, next, hmore, hnext, hnextStack⟩ := ih hagain hdrain hfinal
        refine ⟨.php 0 .dequeue :: .php 0 .call :: (inner ++ .php 0 .ret :: more), next, ?_,
          hnext, hnextStack⟩
        rw [run_php hdeliver, run_php hcall, Transition.run_append, hinner, Option.bind_some,
          run_php hret]
        exact hmore

end Refinement

/-- The events of every timer that was pending are kept exactly when no
exception was pending and no timer but the last one in the list throws. Then
every callback has run with its full count; otherwise the counts behind the
exception are gone. -/
theorem timerInterrupt_keeps_iff {build : Build} {php : Nat} {script : Script} {e : Engine}
    {order : List TimerId} {fuel : Nat}
    (hring : (e.timers.links (build.tls (.php php))).Represents order) (hne : order ≠ [])
    (hfree : (e.timers.tls (build.tls (.php php))).mutex = none)
    (hcallable : ∀ timer ∈ order, script.callback timer = .callable) (hran : e.ran = [])
    (hfuel : order.length < fuel) :
    ∃ final, timerInterrupt build php script fuel e = some final ∧
      ((∀ timer ∈ order, (timer, (e.timers.timers timer).eventCount) ∈ final.ran ∨
        ((final.timers.timers timer).eventCount = (e.timers.timers timer).eventCount ∧
          OnPendingList final.timers (build.tls (.php php)) timer)) ↔
        e.exception = false ∧ ∀ timer ∈ order.dropLast,
          script.throws timer (e.timers.timers timer).eventCount = false) := by
  obtain ⟨final, hfinal, hlog, hempty⟩ := timerInterrupt_spec hring hfree hcallable hfuel
  refine ⟨final, hfinal, ?_⟩
  have hnotPending (timer : TimerId) :
      ¬ OnPendingList final.timers (build.tls (.php php)) timer := by
    intro hpending
    have hmem := (hempty.reach_iff timer).mp hpending
    cases hmem
  have hnodup : (queueOf e.timers order).Nodup := by
    apply List.Nodup.map _ hring.nodup
    intro left right heq
    exact (Prod.mk.inj heq).1
  have hqueue : queueOf e.timers order ≠ [] := by simpa [queueOf] using hne
  have hiff := called_all_iff script e.exception hqueue hnodup
  have hlast : (queueOf e.timers order).dropLast = queueOf e.timers order.dropLast := by
    simp [queueOf, List.map_dropLast]
  rw [hlast] at hiff
  simp only [queueOf, List.forall_mem_map] at hiff
  rw [← hiff]
  constructor
  · intro hkept timer hmem
    have hin := (hkept timer hmem).resolve_right fun hstill => hnotPending timer hstill.2
    rw [hlog, hran, List.append_nil, List.mem_reverse] at hin
    exact hin
  · intro hcalled timer hmem
    refine Or.inl ?_
    rw [hlog, hran, List.append_nil, List.mem_reverse]
    exact hcalled timer hmem

/-- Two timers expire before the VM gets to the interrupt. -/
def twoPending : List Action :=
  [.php 0 (.init 5 true), .php 0 (.init 6 true), .handle 5 0, .handle 6 2]

/-- A script in which the timers of a list throw. -/
def throwers (timers : List TimerId) : Script where
  callback _ := .callable
  throws timer _ := timers.contains timer
  stops _ := true

theorem twoPending_inv {s : State}
    (hrun : Transition.run (step .nonZts) State.initial twoPending = some s) : Inv s [5, 6] := by
  obtain ⟨s₁, hinit₅, hrun⟩ := Transition.run_cons hrun
  obtain ⟨s₂, hinit₆, hrun⟩ := Transition.run_cons hrun
  obtain ⟨s₃, hhandle₅, hrun⟩ := Transition.run_cons hrun
  obtain ⟨s₄, hhandle₆, hrun⟩ := Transition.run_cons hrun
  have hlast : s₄ = s := Option.some.inj hrun
  subst hlast
  cases hinit₅
  cases hinit₆
  have hfive : Inv (timerInit .nonZts 0 State.initial 5 true) [] :=
    timerInit_inv initial_inv rfl rfl true
  have hsix : Inv (timerInit .nonZts 0 (timerInit .nonZts 0 State.initial 5 true) 6 true) [] :=
    timerInit_inv hfive rfl rfl true
  exact handle_inv (handle_inv hsix hhandle₅) hhandle₆

/-- The last timer of the list may throw. -/
theorem timerInterrupt_keeps_iff_twoPending :
    ∃ s final, Transition.run (step .nonZts) State.initial twoPending = some s ∧
      timerInterrupt .nonZts 0 (throwers [6]) 3 ⟨s, false, []⟩ = some final ∧
      ∀ timer ∈ [5, 6], (timer, (s.timers timer).eventCount) ∈ final.ran ∨
        ((final.timers.timers timer).eventCount = (s.timers timer).eventCount ∧
          OnPendingList final.timers (.php 0) timer) := by
  obtain ⟨s, hrun, hfree⟩ := Transition.run_check (step .nonZts) State.initial twoPending
    (fun s => (s.tls (.php 0)).mutex == none) (by decide)
  have hring : (s.links (Build.nonZts.tls (.php 0))).Represents [5, 6] := (twoPending_inv hrun).ring
  have hcallable (timer : TimerId) (_ : timer ∈ [5, 6]) :
      (throwers [6]).callback timer = .callable := rfl
  have hfuel : [5, 6].length < 3 := by decide
  obtain ⟨final, hfinal, hiff⟩ := timerInterrupt_keeps_iff (e := ⟨s, false, []⟩) hring (by simp)
    (beq_iff_eq.mp hfree) hcallable rfl hfuel
  exact ⟨s, final, hrun, hfinal, hiff.mpr ⟨rfl, by simp [throwers]⟩⟩

/-- The first timer throws: the callback of the second is not run, and its
three expiries are neither counted nor pending any more. -/
theorem timerInterrupt_swallows :
    ∃ s final, Transition.run (step .nonZts) State.initial twoPending = some s ∧
      timerInterrupt .nonZts 0 (throwers [5]) 3 ⟨s, false, []⟩ = some final ∧
      (s.timers 6).eventCount = 3 ∧ OnPendingList s (.php 0) 6 ∧
      final.ran = [(5, 1)] ∧ (final.timers.timers 6).eventCount = 0 ∧
      ¬ OnPendingList final.timers (.php 0) 6 := by
  obtain ⟨s, hrun, hcheck⟩ := Transition.run_check (step .nonZts) State.initial twoPending
    (fun s => (s.timers 6).eventCount == 3 &&
      (timerInterrupt .nonZts 0 (throwers [5]) 3 ⟨s, false, []⟩).any fun final =>
        final.ran == [(5, 1)] && (final.timers.timers 6).eventCount == 0 &&
          (final.timers.tls (.php 0)).pendingHead == none) (by decide)
  simp only [Bool.and_eq_true, beq_iff_eq] at hcheck
  obtain ⟨hthree, hany⟩ := hcheck
  cases hfinal : timerInterrupt .nonZts 0 (throwers [5]) 3 ⟨s, false, []⟩ with
  | none => simp [hfinal] at hany
  | some final =>
      simp only [hfinal, Option.any_some, Bool.and_eq_true, beq_iff_eq] at hany
      obtain ⟨⟨hran, hzero⟩, hhead⟩ := hany
      refine ⟨s, final, hrun, hfinal, hthree, ?_, hran, hzero, ?_⟩
      · rw [(twoPending_inv hrun).onPendingList_iff]
        simp
      · rintro ⟨head, hsome, -⟩
        rw [hhead] at hsome
        cases hsome

end Excimer.Timer
