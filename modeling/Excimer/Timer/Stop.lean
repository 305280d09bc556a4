import Excimer.Timer.Flow
import Excimer.Timer.Shutdown
import Mathlib.Algebra.Order.BigOperators.Group.List

/-!
What stopping a timer means. `excimer_timer_stop` disarms the kernel timer and
nothing else: an expiry that is already in the hands of the handler thread,
counted on the pending list, or dequeued, still reaches the callback, and so does
one that is a pending signal, unless the kernel takes it back. No expiry is added
to these until the next start, so what the callback is told after the stop is
bounded by what was buffered at that moment.
-/

namespace Excimer.Timer.Posix

/-- The expiries of a timer that the kernel has reported and its callback has
not been told. -/
def buffered (timer : TimerId) (b : State) : Int :=
  (b.timers timer).upstream + held timer b.core

def Action.expiries (timer : TimerId) : Action → Int
  | .expire other report => if other = timer then report.count else 0
  | _ => 0

/-- The expiries of a timer that the kernel reports during a run. -/
def expiries (timer : TimerId) (actions : List Action) : Int :=
  (actions.map (Action.expiries timer)).sum

def Action.discards (timer : TimerId) : Action → Int
  | .discard other lost => if other = timer then lost else 0
  | _ => 0

/-- The expiries of a timer that the kernel discards again during a run. -/
def discards (timer : TimerId) (actions : List Action) : Int :=
  (actions.map (Action.discards timer)).sum

/-- From its initialisation to the call of `excimer_timer_destroy`. -/
def Live (timer : TimerId) (b : State) : Prop :=
  (b.core.timers timer).isValid = true ∧ destroying timer (b.core.stack 0) = false

section Buffers

variable {b next : State}

theorem TimerOk.pending_nonneg {phase : Option LibraryPc} {t : TimerlibTimer}
    {handler : Option Handler} {running : Bool} {entered : Int}
    (h : TimerOk phase t handler running entered) : 0 ≤ (t.pending.map Signal.count).sum := by
  apply List.sum_nonneg
  intro count hmem
  obtain ⟨signal, hsignal, rfl⟩ := List.mem_map.mp hmem
  cases signal with
  | timer overrun =>
      have hlow := (h.pending_range overrun hsignal).1
      simp only [Signal.count]
      omega
  | kill => simp [Signal.count]

theorem TimerOk.upstream_nonneg {phase : Option LibraryPc} {t : TimerlibTimer}
    {handler : Option Handler} {running : Bool} {entered : Int}
    (h : TimerOk phase t handler running entered) : 0 ≤ t.upstream := by
  have hpending := h.pending_nonneg
  have hthread : 0 ≤ t.thread.count := by
    cases hpc : t.thread with
    | woken signal =>
        cases signal with
        | timer overrun =>
            have hlow := (h.thread_range overrun (Or.inl hpc)).1
            simp only [ThreadPc.count, Signal.count]
            omega
        | kill => simp [ThreadPc.count, Signal.count]
    | notifying overrun =>
        have hlow := (h.thread_range overrun (Or.inr hpc)).1
        simp only [ThreadPc.count]
        omega
    | absent => simp [ThreadPc.count]
    | waiting => simp [ThreadPc.count]
    | storing => simp [ThreadPc.count]
    | exited => simp [ThreadPc.count]
  unfold TimerlibTimer.upstream
  omega

theorem buffered_nonneg (hreach : Reachable b) (timer : TimerId) : 0 ≤ buffered timer b := by
  have hup := ((reachable_inv hreach).timers timer).upstream_nonneg
  have hcount := reachable_nonneg (core_reachable hreach) timer
  obtain ⟨order, hcore⟩ := Timer.reachable_inv (core_reachable hreach)
  have hflight := hcore.inFlight_nonneg timer
  unfold buffered held
  omega

theorem Live.phase_eq {timer : TimerId} (h : Live timer b) : b.phase timer = none :=
  if_neg (not_destroy_of_not_destroying h.2 _)

/-- One step, seen from one timer: what its callback is told and what stays
buffered was buffered before or has been added by the kernel in this step.
Nothing else is lost before `excimer_timer_destroy` is called. -/
def Balanced (timer : TimerId) (b next : State) (added : Int) : Prop :=
  ∃ new, next.core.trace = new ++ b.core.trace ∧
    passed timer new + buffered timer next ≤ buffered timer b + added ∧
    (Live timer b → passed timer new + buffered timer next = buffered timer b + added)

/-- A step that leaves `excimer_timer.c` alone. -/
theorem Balanced.of_upstream {timer : TimerId} {added : Int}
    (hcore : next.core = b.core)
    (hle : (next.timers timer).upstream ≤ (b.timers timer).upstream + added)
    (hlive : Live timer b →
      (next.timers timer).upstream = (b.timers timer).upstream + added) :
    Balanced timer b next added := by
  refine ⟨[], by simp [hcore], ?_, ?_⟩
  · simp only [passed, buffered, hcore]
    omega
  · intro h
    have hup := hlive h
    simp only [passed, buffered, hcore]
    omega

/-- A step of `excimer_timer.c` other than the initialisation of the timer. -/
theorem Balanced.of_core {order : List TimerId} (hinv : Timer.Inv b.core order)
    {timer : TimerId} {own : Timer.Action}
    (hown : Timer.step .nonZts b.core own = some next.core)
    (hinit : ∀ number ok, own ≠ .php number (.init timer ok))
    (hup : (next.timers timer).upstream + own.entering timer = (b.timers timer).upstream) :
    Balanced timer b next 0 := by
  obtain ⟨new, htrace, hkept⟩ := (step_flow hinv timer own hinit hown).kept
  have hsum : passed timer new + buffered timer next = buffered timer b + 0 := by
    unfold buffered
    omega
  exact ⟨new, htrace, hsum.le, fun _ => hsum⟩

theorem expire_balanced (h : Inv b) (timer : TimerId) {other : TimerId} {report : Report}
    (hstep : step b (.expire other report) = some next) :
    Balanced timer b next ((Action.expire other report).expiries timer) := by
  obtain ⟨t, hexpire, rfl⟩ := Option.map_eq_some_iff.mp hstep
  have hup : ((b.setTimer other t).timers timer).upstream =
      (b.timers timer).upstream + (Action.expire other report).expiries timer := by
    by_cases heq : other = timer
    · subst heq
      unfold TimerlibTimer.expire at hexpire
      split at hexpire
      case h_1 => cases hexpire
      case h_2 interval _ =>
        obtain ⟨after, hsend, rfl⟩ := Option.map_eq_some_iff.mp hexpire
        have hsum := (sendExpiry_spec hsend (h.timers other).pending_range).1
        simp only [Layered.setTimer, Function.update_self, TimerlibTimer.upstream, hsum,
          Action.expiries, if_true]
        omega
    · simp [Layered.setTimer, Action.expiries, heq, Ne.symm heq]
  exact Balanced.of_upstream rfl hup.le fun _ => hup

theorem discard_balanced (timer : TimerId) {other : TimerId} {lost : Int}
    (hstep : step b (.discard other lost) = some next) :
    Balanced timer b next (-(Action.discard other lost).discards timer) := by
  obtain ⟨t, hdiscard, rfl⟩ := Option.map_eq_some_iff.mp hstep
  obtain ⟨⟨-, hlost⟩, heq⟩ := Option.ite_none_right_eq_some.mp hdiscard
  cases heq
  have hup : ((b.setTimer other { b.timers other with
      pending := (b.timers other).pending.filter Signal.isKill
      rearmed := false
      discarded := (b.timers other).discarded + lost }).timers timer).upstream =
        (b.timers timer).upstream + -(Action.discard other lost).discards timer := by
    by_cases heq : other = timer
    · subst heq
      simp only [Layered.setTimer, Function.update_self, TimerlibTimer.upstream, sum_count_isKill,
        Action.discards, if_true]
      omega
    · simp [Layered.setTimer, Action.discards, heq, Ne.symm heq]
  exact Balanced.of_upstream rfl hup.le fun _ => hup

/-- No signal stands for a negative number of expiries. -/
theorem discards_nonneg (h : Inv b) (timer : TimerId) (action : Action)
    (hstep : step b action = some next) : 0 ≤ action.discards timer := by
  cases action with
  | discard other lost =>
      obtain ⟨t, hdiscard, -⟩ := Option.map_eq_some_iff.mp hstep
      obtain ⟨⟨-, hlost⟩, -⟩ := Option.ite_none_right_eq_some.mp hdiscard
      have hnonneg := (h.timers other).pending_nonneg
      simp only [Action.discards]
      split
      · omega
      · rfl
  | _ => exact le_rfl

theorem wake_balanced (timer : TimerId) {other : TimerId} {signal : Signal}
    (hstep : step b (.wake other signal) = some next) : Balanced timer b next 0 := by
  obtain ⟨t, hwake, rfl⟩ := Option.map_eq_some_iff.mp hstep
  obtain ⟨⟨hwaiting, hmem⟩, heq⟩ := Option.ite_none_right_eq_some.mp hwake
  cases heq
  have hup : ((b.setTimer other { b.timers other with
      thread := .woken signal
      pending := (b.timers other).pending.erase signal
      rearmed := false }).timers timer).upstream = (b.timers timer).upstream + 0 := by
    by_cases heq : timer = other
    · subst heq
      have hsum := List.sum_map_erase Signal.count hmem
      simp only [Layered.setTimer, Function.update_self, TimerlibTimer.upstream, hwaiting,
        ThreadPc.count]
      omega
    · simp [Layered.setTimer, heq]
  exact Balanced.of_upstream rfl hup.le fun _ => hup

/-- A thread that has been told to exit discards the signal it has received. -/
theorem test_balanced (h : Inv b) (timer : TimerId) {other : TimerId}
    (hstep : step b (.test other) = some next) : Balanced timer b next 0 := by
  obtain ⟨t, htest, rfl⟩ := Option.map_eq_some_iff.mp hstep
  by_cases heq : timer = other
  · subst heq
    have hok := h.timers timer
    unfold TimerlibTimer.test at htest
    split at htest
    case h_2 => cases htest
    case h_1 signal hwoken =>
      have hnonneg : 0 ≤ signal.count := by
        cases signal with
        | timer overrun =>
            have hlow := (hok.thread_range overrun (Or.inl hwoken)).1
            simp only [Signal.count]
            omega
        | kill => simp [Signal.count]
      split at htest
      · next hkilled =>
          cases htest
          refine Balanced.of_upstream rfl ?_ ?_
          · simp only [Layered.setTimer, Function.update_self, TimerlibTimer.upstream, hwoken,
              ThreadPc.count]
            omega
          · intro hlive
            rw [hlive.phase_eq] at hok
            have hhandler := hok.handler_ne_none (by simp [hwoken]) (by simp [hwoken])
            have halive := (hok.alive hhandler rfl).1
            rw [hkilled] at halive
            cases halive
      · cases signal with
        | timer overrun =>
            cases htest
            have hup : ((b.setTimer timer { b.timers timer with
                thread := .notifying overrun }).timers timer).upstream =
                (b.timers timer).upstream + 0 := by
              simp [Layered.setTimer, TimerlibTimer.upstream, hwoken, ThreadPc.count, Signal.count]
            exact Balanced.of_upstream rfl hup.le fun _ => hup
        | kill =>
            cases htest
            have hup : ((b.setTimer timer { b.timers timer with
                thread := .waiting }).timers timer).upstream =
                (b.timers timer).upstream + 0 := by
              simp [Layered.setTimer, TimerlibTimer.upstream, hwoken, ThreadPc.count, Signal.count]
            exact Balanced.of_upstream rfl hup.le fun _ => hup
  · have hup : ((b.setTimer other t).timers timer).upstream = (b.timers timer).upstream + 0 := by
      simp [Layered.setTimer, heq]
    exact Balanced.of_upstream rfl hup.le fun _ => hup

theorem notify_balanced {order : List TimerId} (hcore : Timer.Inv b.core order)
    (timer : TimerId) {other : TimerId} (hstep : step b (.notify other) = some next) :
    Balanced timer b next 0 := by
  simp only [step] at hstep
  split at hstep
  case h_2 => cases hstep
  case h_1 overrun hthread =>
    obtain ⟨mid, hmid, rfl⟩ := Option.map_eq_some_iff.mp hstep
    obtain ⟨hown, htimers⟩ := Layered.coreStep_eq hmid
    refine Balanced.of_core hcore hown (by simp) ?_
    by_cases heq : timer = other
    · subst heq
      simp [Layered.setTimer, TimerlibTimer.upstream, hthread, ThreadPc.count,
        Timer.Action.entering]
    · simp [Layered.setTimer, htimers, heq, Ne.symm heq, Timer.Action.entering]

theorem store_balanced {order : List TimerId} (hcore : Timer.Inv b.core order)
    (timer : TimerId) {other : TimerId} (hstep : step b (.store other) = some next) :
    Balanced timer b next 0 := by
  obtain ⟨hthread, hstep⟩ := Option.ite_none_right_eq_some.mp hstep
  obtain ⟨mid, hmid, rfl⟩ := Option.map_eq_some_iff.mp hstep
  obtain ⟨hown, htimers⟩ := Layered.coreStep_eq hmid
  refine Balanced.of_core hcore hown (by simp) ?_
  by_cases heq : timer = other
  · subst heq
    simp [Layered.setTimer, TimerlibTimer.upstream, hthread, ThreadPc.count,
      Timer.Action.entering]
  · simp [Layered.setTimer, htimers, heq, Timer.Action.entering]

@[simp] theorem start_upstream (t : TimerlibTimer) (period : Timespec) (ok : Bool) :
    (t.start period ok).1.upstream = t.upstream := by
  unfold TimerlibTimer.start
  split <;> rfl

@[simp] theorem stop_upstream (t : TimerlibTimer) (ok : Bool) :
    (t.stop ok).1.upstream = t.upstream := by
  unfold TimerlibTimer.stop
  split <;> rfl

/-- Writing one timer without changing the expiries it carries. -/
theorem setTimer_upstream {timer other : TimerId} {t : TimerlibTimer}
    (ht : t.upstream = (b.timers other).upstream) :
    ((b.setTimer other t).timers timer).upstream = (b.timers timer).upstream := by
  by_cases heq : timer = other
  · subst heq
    simpa [Layered.setTimer] using ht
  · simp [Layered.setTimer, heq]

theorem init_balanced (hreach : Reachable b) (timer : TimerId) {other : TimerId} {ok : Bool}
    (hstep : step b (.php (.init other ok)) = some next) : Balanced timer b next 0 := by
  obtain ⟨order, hcore⟩ := Timer.reachable_inv (core_reachable hreach)
  obtain ⟨mid, hmid, rfl⟩ := Option.map_eq_some_iff.mp hstep
  obtain ⟨hown, htimers⟩ := Layered.coreStep_eq hmid
  by_cases heq : timer = other
  · subst heq
    obtain ⟨⟨hphp, hinvalid⟩, hinit⟩ := Option.ite_none_right_eq_some.mp hown
    have hinit := Option.some.inj hinit
    have hquiet := quiet_of_callbacks (hcore.user_stack hphp)
    have hnonneg := buffered_nonneg hreach timer
    refine ⟨[.init timer ok], ?_, ?_, ?_⟩
    · change mid.core.trace = _
      rw [← hinit]
      cases ok <;> rfl
    · have hzero : buffered timer (mid.setTimer timer
          (if ok then { timerValid := true, threadValid := true, thread := .waiting } else {})) =
          0 := by
        have hstack : mid.core.stack = b.core.stack := by
          rw [← hinit]
          cases ok <;> rfl
        have hcount : (mid.core.timers timer).eventCount = 0 := by
          rw [← hinit]
          cases ok <;> simp [timerInit, Timer.State.setTimer, Timer.State.record]
        have hflight : inFlight timer (mid.core.stack 0) = 0 := by
          rw [hstack]
          exact hquiet.inFlight_eq timer
        cases ok <;>
          simp [buffered, held, Layered.setTimer, TimerlibTimer.upstream, ThreadPc.count, hcount,
            hflight]
      rw [hzero]
      simpa [passed] using hnonneg
    · intro hlive
      have hvalid := hlive.1
      rw [hinvalid] at hvalid
      cases hvalid
  · refine Balanced.of_core hcore hown ?_ ?_
    · intro number ok' hsame
      cases hsame
      exact heq rfl
    · simp [Layered.setTimer, htimers, heq, Timer.Action.entering]

theorem php_balanced (hreach : Reachable b) (timer : TimerId) (move : Move)
    (hstep : step b (.php move) = some next) : Balanced timer b next 0 := by
  obtain ⟨order, hcore⟩ := Timer.reachable_inv (core_reachable hreach)
  -- A step of `excimer_timer.c` during which the library keeps what it carries.
  have hplain {own : Move} {mid after : State} (hinit : ∀ ok, own ≠ .init timer ok)
      (hmid : b.coreStep (.php 0 own) = some mid) (hsame : after.core = mid.core)
      (hup : (after.timers timer).upstream = (mid.timers timer).upstream) :
      Balanced timer b after 0 := by
    obtain ⟨hown, htimers⟩ := Layered.coreStep_eq hmid
    rw [← hsame] at hown
    refine Balanced.of_core hcore hown ?_ (by simp [hup, htimers, Timer.Action.entering])
    intro number ok hsame
    cases hsame
    exact hinit ok rfl
  cases move with
  | init other ok => exact init_balanced hreach timer hstep
  | start other period initial ok =>
      obtain ⟨mid, hmid, rfl⟩ := Option.map_eq_some_iff.mp hstep
      refine hplain (by simp) hmid (by split <;> rfl) ?_
      split
      · exact setTimer_upstream (by simp [(Layered.coreStep_eq hmid).2])
      · rfl
  | stop other ok =>
      obtain ⟨mid, hmid, rfl⟩ := Option.map_eq_some_iff.mp hstep
      refine hplain (by simp) hmid (by split <;> rfl) ?_
      split
      · exact setTimer_upstream (by simp [(Layered.coreStep_eq hmid).2])
      · rfl
  | destroy other =>
      obtain ⟨mid, hmid, rfl⟩ := Option.map_eq_some_iff.mp hstep
      exact hplain (by simp) hmid (by split <;> rfl) (by split <;> rfl)
  | destroyNext =>
      obtain ⟨_, hmid⟩ := Option.ite_none_right_eq_some.mp hstep
      exact hplain (by simp) hmid rfl rfl
  | interrupt => exact hplain (by simp) hstep rfl rfl
  | dequeue => exact hplain (by simp) hstep rfl rfl
  | call => exact hplain (by simp) hstep rfl rfl
  | ret => exact hplain (by simp) hstep rfl rfl

theorem library_balanced (hreach : Reachable b) (timer : TimerId) {ok : Bool}
    (hstep : step b (.library ok) = some next) : Balanced timer b next 0 := by
  obtain ⟨order, hcore⟩ := Timer.reachable_inv (core_reachable hreach)
  have hsame {mid : State} (hmid : mid.core = b.core)
      (hup : (mid.timers timer).upstream = (b.timers timer).upstream) :
      Balanced timer b mid 0 :=
    Balanced.of_upstream hmid (by omega) fun _ => by omega
  obtain ⟨pc, other, own, rest, hlibrary, hstack, hmoves⟩ := step_library hstep
  cases hmoves with
  | stop => exact hsame rfl (setTimer_upstream (by simp))
  | gracefulExit => exact hsame rfl (setTimer_upstream rfl)
  | noThread => exact hsame rfl rfl
  | kill =>
      exact hsame rfl (setTimer_upstream (by simp [TimerlibTimer.upstream, Signal.count]))
  | queueFull => exact hsame rfl (setTimer_upstream rfl)
  | join => exact hsame rfl rfl
  | @delete mid hmid =>
      obtain ⟨hown, htimers⟩ := Layered.coreStep_eq hmid
      have hself : ((b.timers other).delete ok).upstream = (mid.timers other).upstream := by
        simp [TimerlibTimer.upstream, htimers]
      have hup : ((mid.setTimer other ((b.timers other).delete ok)).timers timer).upstream =
          (b.timers timer).upstream := by
        rw [setTimer_upstream hself, htimers]
      refine Balanced.of_core hcore hown (by simp) ?_
      simpa [Timer.Action.entering] using hup

theorem step_balanced (hreach : Reachable b) (timer : TimerId) (action : Action)
    (hstep : step b action = some next) :
    Balanced timer b next (action.expiries timer - action.discards timer) := by
  have hinv := reachable_inv hreach
  obtain ⟨order, hcore⟩ := Timer.reachable_inv (core_reachable hreach)
  cases action with
  | expire other report =>
      have hbalanced := expire_balanced hinv timer hstep
      rwa [← Int.sub_zero ((Action.expire other report).expiries timer)] at hbalanced
  | discard other lost =>
      have hbalanced := discard_balanced timer hstep
      rwa [← Int.zero_sub] at hbalanced
  | wake other signal => exact wake_balanced timer hstep
  | test other => exact test_balanced hinv timer hstep
  | notify other => exact notify_balanced hcore timer hstep
  | store other => exact store_balanced hcore timer hstep
  | raise =>
      obtain ⟨hown, htimers⟩ := Layered.coreStep_eq hstep
      exact Balanced.of_core hcore hown (by simp) (by simp [htimers, Timer.Action.entering])
  | php move => exact php_balanced hreach timer move hstep
  | library ok => exact library_balanced hreach timer hstep

theorem step_live {order : List TimerId} (hcore : Timer.Inv b.core order) {timer : TimerId}
    (action : Action) (hdestroy : action ≠ .php (.destroy timer)) (hlive : Live timer b)
    (hstep : step b action = some next) : Live timer next := by
  rcases step_core action hstep with hsame | ⟨own, hown, hasked⟩
  · unfold Live
    rw [hsame]
    exact hlive
  · apply step_alive hcore own _ hlive.1 hlive.2 hown
    intro number heq
    exact hdestroy (hasked number timer heq)

theorem setTimer_armed {timer other : TimerId} {t : TimerlibTimer}
    (harmed : (b.timers timer).armed = none) (ht : other = timer → t.armed = none) :
    ((b.setTimer other t).timers timer).armed = none := by
  by_cases heq : other = timer
  · subst heq
    simpa [Layered.setTimer] using ht rfl
  · simpa [Layered.setTimer, Ne.symm heq] using harmed

theorem stop_armed {t : TimerlibTimer} (harmed : t.armed = none) (ok : Bool) :
    (t.stop ok).1.armed = none := by
  unfold TimerlibTimer.stop
  split
  · rfl
  · exact harmed

/-- Arming succeeds exactly when `excimer_timer_start` records it. -/
theorem start_armed {timer other : TimerId} {period initial : Timespec} {ok : Bool}
    (harmed : (b.timers timer).armed = none)
    (hstep : step b (.php (.start other period initial ok)) = some next) :
    (next.timers timer).armed = none ∨ next.core.trace = .start timer :: b.core.trace := by
  obtain ⟨mid, hmid, rfl⟩ := Option.map_eq_some_iff.mp hstep
  obtain ⟨hown, htimers⟩ := Layered.coreStep_eq hmid
  obtain ⟨_, hcore⟩ := Option.ite_none_right_eq_some.mp hown
  have hcore := Option.some.inj hcore
  have harmed' : (mid.timers timer).armed = none := by rw [htimers]; exact harmed
  split
  · next hcalled =>
      simp only [Bool.and_eq_true, Bool.not_eq_true'] at hcalled
      by_cases heq : other = timer
      · subst heq
        cases hresult : ((b.timers other).start period ok).2 with
        | true =>
            refine Or.inr ?_
            change mid.core.trace = _
            rw [← hcore, hresult]
            simp [timerStart, hcalled.1, hcalled.2, State.record, Timer.State.setRunning,
              Timer.State.setTimer]
        | false =>
            refine Or.inl (setTimer_armed harmed' fun _ => ?_)
            unfold TimerlibTimer.start at hresult ⊢
            split at hresult
            · cases hresult
            · next hfail =>
                rw [if_neg hfail]
                exact harmed
      · exact Or.inl (setTimer_armed harmed' fun hsame => absurd hsame heq)
  · exact Or.inl harmed'

theorem coreStep_armed {timer : TimerId} {own : Timer.Action} {mid : State}
    (harmed : (b.timers timer).armed = none) (hmid : b.coreStep own = some mid) :
    (mid.timers timer).armed = none := by
  rw [(Layered.coreStep_eq hmid).2]
  exact harmed

theorem library_armed {timer : TimerId} {ok : Bool} (harmed : (b.timers timer).armed = none)
    (hstep : step b (.library ok) = some next) : (next.timers timer).armed = none := by
  obtain ⟨pc, other, own, rest, _, _, hmoves⟩ := step_library hstep
  cases hmoves with
  | stop =>
      apply setTimer_armed harmed
      rintro rfl
      exact stop_armed harmed ok
  | gracefulExit => exact setTimer_armed harmed fun heq => heq ▸ harmed
  | noThread => exact harmed
  | kill => exact setTimer_armed harmed fun heq => heq ▸ harmed
  | queueFull => exact setTimer_armed harmed fun heq => heq ▸ harmed
  | join => exact harmed
  | delete hmid =>
      apply setTimer_armed (coreStep_armed harmed hmid)
      rintro rfl
      simp only [TimerlibTimer.delete]
      split
      · simp [harmed]
      · exact harmed

theorem php_armed {timer : TimerId} (move : Move) (harmed : (b.timers timer).armed = none)
    (hstep : step b (.php move) = some next) :
    (next.timers timer).armed = none ∨ next.core.trace = .start timer :: b.core.trace := by
  cases move with
  | init other ok =>
      obtain ⟨mid, hmid, rfl⟩ := Option.map_eq_some_iff.mp hstep
      apply Or.inl
      apply setTimer_armed (coreStep_armed harmed hmid)
      intro _
      split <;> rfl
  | start other period initial ok => exact start_armed harmed hstep
  | stop other ok =>
      obtain ⟨mid, hmid, rfl⟩ := Option.map_eq_some_iff.mp hstep
      split
      · apply Or.inl
        apply setTimer_armed (coreStep_armed harmed hmid)
        rintro rfl
        exact stop_armed harmed ok
      · exact Or.inl (coreStep_armed harmed hmid)
  | destroy other =>
      obtain ⟨mid, hmid, rfl⟩ := Option.map_eq_some_iff.mp hstep
      have hkept := coreStep_armed harmed hmid
      split
      · exact Or.inl hkept
      · exact Or.inl hkept
  | destroyNext =>
      obtain ⟨_, hmid⟩ := Option.ite_none_right_eq_some.mp hstep
      exact Or.inl (coreStep_armed harmed hmid)
  | interrupt => exact Or.inl (coreStep_armed harmed hstep)
  | dequeue => exact Or.inl (coreStep_armed harmed hstep)
  | call => exact Or.inl (coreStep_armed harmed hstep)
  | ret => exact Or.inl (coreStep_armed harmed hstep)

/-- A kernel timer that is not armed does not expire, and only a successful
start arms it. -/
theorem step_armed {timer : TimerId} (action : Action)
    (harmed : (b.timers timer).armed = none) (hstep : step b action = some next) :
    (∀ report, action ≠ .expire timer report) ∧
      ((next.timers timer).armed = none ∨
        next.core.trace = .start timer :: b.core.trace) := by
  cases action with
  | expire other report =>
      obtain ⟨t, hexpire, rfl⟩ := Option.map_eq_some_iff.mp hstep
      have hne : other ≠ timer := by
        rintro rfl
        simp [TimerlibTimer.expire, harmed] at hexpire
      refine ⟨?_, Or.inl (setTimer_armed harmed fun heq => absurd heq hne)⟩
      rintro _ heq
      cases heq
      exact hne rfl
  | discard other lost =>
      obtain ⟨t, hdiscard, rfl⟩ := Option.map_eq_some_iff.mp hstep
      obtain ⟨_, heq⟩ := Option.ite_none_right_eq_some.mp hdiscard
      cases heq
      exact ⟨by simp, Or.inl (setTimer_armed harmed fun heq => heq ▸ harmed)⟩
  | wake other signal =>
      obtain ⟨t, hwake, rfl⟩ := Option.map_eq_some_iff.mp hstep
      obtain ⟨_, heq⟩ := Option.ite_none_right_eq_some.mp hwake
      cases heq
      exact ⟨by simp, Or.inl (setTimer_armed harmed fun heq => heq ▸ harmed)⟩
  | test other =>
      obtain ⟨t, htest, rfl⟩ := Option.map_eq_some_iff.mp hstep
      refine ⟨by simp, Or.inl (setTimer_armed harmed ?_)⟩
      rintro rfl
      unfold TimerlibTimer.test at htest
      repeat' split at htest
      all_goals cases htest
      all_goals exact harmed
  | notify other =>
      simp only [step] at hstep
      split at hstep
      · obtain ⟨mid, hmid, rfl⟩ := Option.map_eq_some_iff.mp hstep
        have hkept := coreStep_armed harmed hmid
        exact ⟨by simp, Or.inl (setTimer_armed hkept fun heq => heq ▸ harmed)⟩
      · cases hstep
  | store other =>
      obtain ⟨_, hstep⟩ := Option.ite_none_right_eq_some.mp hstep
      obtain ⟨mid, hmid, rfl⟩ := Option.map_eq_some_iff.mp hstep
      have hkept := coreStep_armed harmed hmid
      exact ⟨by simp, Or.inl (setTimer_armed hkept fun heq => heq ▸ harmed)⟩
  | raise => exact ⟨by simp, Or.inl (coreStep_armed harmed hstep)⟩
  | php move => exact ⟨by simp, php_armed move harmed hstep⟩
  | library ok => exact ⟨by simp, Or.inl (library_armed harmed hstep)⟩

/-- What a whole run does to the expiries of one timer. -/
theorem run_balanced {later : State} {timer : TimerId} {actions : List Action}
    (hreach : Reachable b) (hrun : Transition.run step b actions = some later) :
    ∃ newer, later.core.trace = newer ++ b.core.trace ∧
      0 ≤ discards timer actions ∧
      passed timer newer + buffered timer later + discards timer actions ≤
        buffered timer b + expiries timer actions ∧
      (Live timer b → .php (.destroy timer) ∉ actions →
        passed timer newer + buffered timer later + discards timer actions =
          buffered timer b + expiries timer actions) ∧
      ((b.timers timer).armed = none → .start timer ∉ newer →
        ∀ report, .expire timer report ∉ actions) := by
  induction actions generalizing b with
  | nil =>
      have hsame : b = later := Option.some.inj hrun
      subst hsame
      exact ⟨[], rfl, le_rfl, by simp [passed, expiries, discards],
        fun _ _ => by simp [passed, expiries, discards], fun _ _ => by simp⟩
  | cons action rest ih =>
      obtain ⟨next, hstep, hrest⟩ := Transition.run_cons hrun
      obtain ⟨order, hcore⟩ := Timer.reachable_inv (core_reachable hreach)
      obtain ⟨new, htrace, hle, heq⟩ := step_balanced hreach timer action hstep
      obtain ⟨newer, htrace', hnonneg', hle', heq', hsilent⟩ := ih (hreach.step_from hstep) hrest
      have hnonneg := discards_nonneg (reachable_inv hreach) timer action hstep
      have hcons : expiries timer (action :: rest) =
          action.expiries timer + expiries timer rest := by simp [expiries]
      have hlost : discards timer (action :: rest) =
          action.discards timer + discards timer rest := by simp [discards]
      refine ⟨newer ++ new, ?_, ?_, ?_, ?_, ?_⟩
      · rw [htrace', htrace, List.append_assoc]
      · omega
      · rw [passed_append, hcons, hlost]
        omega
      · intro hlive hkeep
        rw [List.mem_cons, not_or] at hkeep
        have hnow := heq hlive
        have hthen := heq' (step_live hcore action (Ne.symm hkeep.1) hlive hstep) hkeep.2
        rw [passed_append, hcons, hlost]
        omega
      · intro harmed hstart report hmem
        rw [List.mem_append, not_or] at hstart
        obtain ⟨hother, hnext⟩ := step_armed action harmed hstep
        rcases List.mem_cons.mp hmem with hsame | hlater
        · exact hother report hsame.symm
        · rcases hnext with hnone | hstarted
          · exact hsilent hnone hstart.1 report hlater
          · have happend : new ++ b.core.trace = [.start timer] ++ b.core.trace :=
              htrace.symm.trans hstarted
            have hnew : new = [.start timer] := List.append_cancel_right happend
            exact hstart.2 (by simp [hnew])

end Buffers

theorem expiries_eq_zero {timer : TimerId} {actions : List Action}
    (h : ∀ report, .expire timer report ∉ actions) : expiries timer actions = 0 := by
  induction actions with
  | nil => rfl
  | cons action rest ih =>
      have hrest := ih fun report hmem => h report (List.mem_cons_of_mem _ hmem)
      have hzero : action.expiries timer = 0 := by
        unfold Action.expiries
        split
        · next other report =>
            have hne : other ≠ timer := fun heq => h report (heq ▸ List.mem_cons_self ..)
            rw [if_neg hne]
        · rfl
      unfold expiries at hrest ⊢
      rw [List.map_cons, List.sum_cons, hzero, hrest]
      rfl

theorem Live.handler_ne_none {b : State} {timer : TimerId} (h : Live timer b)
    {order : List TimerId} (hcore : Timer.Inv b.core order) :
    b.core.handlers timer ≠ none := by
  rw [← Option.isSome_iff_ne_none, hcore.served]
  refine ⟨h.1, ?_⟩
  intro pc hhead
  exact absurd hhead (not_destroy_of_not_destroying h.2 pc)

/-- The timer is alive when `excimer_timer_stop` returns. -/
theorem stop_live {b stopped : State} (hreach : Reachable b) {timer : TimerId} {ok : Bool}
    (hinit : initialised timer b.core.trace = true)
    (hstop : step b (.php (.stop timer ok)) = some stopped) : Live timer stopped := by
  obtain ⟨order, hcore⟩ := Timer.reachable_inv (core_reachable hreach)
  have hvalid := ((reachable_recorded (core_reachable hreach)).valid timer).trans hinit
  apply step_live hcore _ _ ⟨hvalid, _⟩ hstop
  · simp
  · obtain ⟨mid, hmid, _⟩ := Option.map_eq_some_iff.mp hstop
    obtain ⟨hphp, _⟩ := Option.ite_none_right_eq_some.mp (Layered.coreStep_eq hmid).1
    apply List.any_eq_false.mpr
    intro frame hmem
    obtain ⟨other, rfl⟩ := hcore.user_stack hphp frame hmem
    simp

/-- Every expiry the kernel has reported since the initialisation of a timer
has been passed to its callback, has been discarded, or is in one of the buffers. -/
theorem reported_accounted {b : State} (hreach : Reachable b) {timer : TimerId}
    (hlive : Live timer b) :
    delivered timer b.core.trace + buffered timer b + (b.timers timer).discarded =
      (b.timers timer).reported := by
  have hok := (reachable_inv hreach).timers timer
  obtain ⟨order, hcore⟩ := Timer.reachable_inv (core_reachable hreach)
  have htracked : Tracked b.core timer :=
    ⟨hlive.1, not_destroy_of_not_destroying hlive.2 _, not_destroy_of_not_destroying hlive.2 _⟩
  have hbalance := hcore.balance timer htracked
  rw [hlive.phase_eq] at hok
  have halive := (hok.alive (hlive.handler_ne_none hcore) rfl).2.2.2
  unfold buffered held
  omega

/-- A stopped timer gets no new expiries until it is started again. What its
callback is told after the stop comes out of the buffers: it never exceeds what
was buffered at the stop and what the kernel has reported since, and with empty
buffers the callback is silent until the next start. As long as the timer is not
destroyed, nothing that was buffered is lost except for what `timer_settime`
discards. -/
theorem stop_leaves_buffered {b stopped later : State} (hreach : Reachable b)
    {timer : TimerId} {ok : Bool} (hinit : initialised timer b.core.trace = true)
    (hstop : step b (.php (.stop timer ok)) = some stopped)
    (hidle : (stopped.core.timers timer).isRunning = false) {actions : List Action}
    (hrun : Transition.run step stopped actions = some later) :
    ∃ newer, later.core.trace = newer ++ stopped.core.trace ∧
      0 ≤ discards timer actions ∧
      passed timer newer + buffered timer later + discards timer actions ≤
        buffered timer stopped + expiries timer actions ∧
      (.php (.destroy timer) ∉ actions →
        passed timer newer + buffered timer later + discards timer actions =
          buffered timer stopped + expiries timer actions) ∧
      (.start timer ∉ newer → ∀ report, .expire timer report ∉ actions) ∧
      (buffered timer stopped = 0 → .start timer ∉ newer →
        ∀ count, .callback timer count ∉ newer) := by
  have hreach' : Reachable stopped := hreach.step_from hstop
  have hlive' : Live timer stopped := stop_live hreach hinit hstop
  have harmed : (stopped.timers timer).armed = none := by
    obtain ⟨order, hcore⟩ := Timer.reachable_inv (core_reachable hreach')
    have hok := (reachable_inv hreach').timers timer
    rw [hlive'.phase_eq] at hok
    exact hok.disarmed rfl (hlive'.handler_ne_none hcore) hidle
  obtain ⟨newer, htrace, hlost, hle, heq, hsilent⟩ := run_balanced hreach' hrun
  refine ⟨newer, htrace, hlost, hle, heq hlive', hsilent harmed, ?_⟩
  intro hempty hstart
  have hlater : Reachable later := hreach'.run_from hrun
  obtain ⟨order, hcore⟩ := Timer.reachable_inv (core_reachable hlater)
  have hnone := expiries_eq_zero (hsilent harmed hstart)
  have hnonneg := buffered_nonneg hlater timer
  apply not_called_of_passed
  · intro count hmem
    apply hcore.positive timer count
    rw [htrace]
    exact List.mem_append_left _ hmem
  · omega

/-- The kernel reports an expiry and the handler thread passes it on. -/
def expiryHandled : List Action :=
  [.expire 5 .queued, .wake 5 (.timer 0), .test 5, .notify 5, .store 5]

def startedAndExpired : List Action :=
  [.php (.init 5 true), .php (.start 5 ⟨0, 1000⟩ ⟨0, 0⟩ true)] ++ expiryHandled

def interruptCalls : List Action := [.php .interrupt, .php .dequeue, .php .call]

/-- A stopped timer is not silent: an expiry that was on the pending list when
`excimer_timer_stop` returned is passed to the callback afterwards, and if the
timer is started again first, it is charged to the new start. -/
theorem stopped_timer_calls :
    (∃ stopped later,
      Transition.run step State.initial (startedAndExpired ++ [.php (.stop 5 true)]) =
        some stopped ∧
      (stopped.core.timers 5).isRunning = false ∧
      Transition.run step stopped interruptCalls = some later ∧
      later.core.trace = .callback 5 1 :: stopped.core.trace) ∧
    ∃ later, Transition.run step State.initial (startedAndExpired ++ [.php (.stop 5 true),
        .php (.start 5 ⟨0, 1000⟩ ⟨0, 0⟩ true)] ++ expiryHandled ++ interruptCalls) = some later ∧
      later.core.trace = [.callback 5 2, .handle 5 0, .start 5, .stop 5, .handle 5 0, .start 5,
        .init 5 true] := by
  refine ⟨?_, ?_⟩
  · obtain ⟨stopped, hrun, hcheck⟩ := Transition.run_check step State.initial
      (startedAndExpired ++ [.php (.stop 5 true)])
      (fun stopped => !(stopped.core.timers 5).isRunning &&
        (Transition.run step stopped interruptCalls).any fun later =>
          later.core.trace == .callback 5 1 :: stopped.core.trace) (by decide)
    simp only [Bool.and_eq_true, Bool.not_eq_true'] at hcheck
    obtain ⟨later, hlater, htrace⟩ := Transition.run_check step stopped interruptCalls _ hcheck.2
    exact ⟨stopped, later, hrun, hcheck.1, hlater, beq_iff_eq.mp htrace⟩
  · obtain ⟨later, hrun, hcheck⟩ := Transition.run_check step State.initial
      (startedAndExpired ++ [.php (.stop 5 true), .php (.start 5 ⟨0, 1000⟩ ⟨0, 0⟩ true)] ++
        expiryHandled ++ interruptCalls)
      (fun later => later.core.trace == [.callback 5 2, .handle 5 0, .start 5, .stop 5,
        .handle 5 0, .start 5, .init 5 true]) (by decide)
    exact ⟨later, hrun, beq_iff_eq.mp hcheck⟩

/-- Of two expiries one is on the pending list and the other one is a pending
signal when the timer is stopped, and the kernel discards the signal. -/
theorem stop_leaves_buffered_interruptCalls :
    ∃ stopped later newer,
      Transition.run step State.initial
        ((startedAndExpired ++ [.expire 5 .queued]) ++ [.php (.stop 5 true)]) = some stopped ∧
      Transition.run step stopped (.discard 5 1 :: interruptCalls) = some later ∧
      buffered 5 stopped = 2 ∧ later.core.trace = newer ++ stopped.core.trace ∧
      passed 5 newer + buffered 5 later = 1 := by
  obtain ⟨stopped, hrun, hcheck⟩ := Transition.run_check step State.initial
    ((startedAndExpired ++ [.expire 5 .queued]) ++ [.php (.stop 5 true)])
    (fun stopped => !(stopped.core.timers 5).isRunning && buffered 5 stopped == 2 &&
      (Transition.run step stopped (.discard 5 1 :: interruptCalls)).any fun _ => true)
    (by decide)
  simp only [Bool.and_eq_true, Bool.not_eq_true', beq_iff_eq] at hcheck
  obtain ⟨⟨hidle, htwo⟩, hmore⟩ := hcheck
  obtain ⟨later, hlater, -⟩ := Transition.run_check step stopped _ _ hmore
  obtain ⟨b, hbefore, hstop⟩ := Transition.run_last hrun
  obtain ⟨same, hsame, hinit⟩ := Transition.run_check step State.initial
    (startedAndExpired ++ [.expire 5 .queued]) (fun b => initialised 5 b.core.trace) (by decide)
  cases hbefore.symm.trans hsame
  have hreach : Reachable b := ⟨State.initial, _, rfl, hbefore⟩
  obtain ⟨newer, htrace, -, -, heq, -⟩ := stop_leaves_buffered hreach hinit hstop hidle hlater
  refine ⟨stopped, later, newer, hrun, hlater, htwo, htrace, ?_⟩
  have hsum := heq (by decide)
  have hlost : discards 5 (.discard 5 1 :: interruptCalls) = 1 := by decide
  have hnone : expiries 5 (.discard 5 1 :: interruptCalls) = 0 := by decide
  omega

end Excimer.Timer.Posix
