import Excimer.Timer.Flow
import Excimer.Timer.KqueueStop

/-!
What a timer over the kqueue library does between its start and its stop, over
whole runs. Every expiration that the kernel counts is in one known place until it
is passed to the callback or dropped with a queue, a running periodic timer is
armed or about to be armed again, and a timer that has been stopped is never heard
of again.
-/

namespace Excimer.Timer.KqueueThreads

open Kqueue (Outcomes)

/-- Everything that a step can do to the library's record of one timer. -/
inductive Changes (b : State) (timer : TimerId) : Action → TimerlibTimer → Prop
  | kept {action : Action} (hother : action.ofHandler timer = false) :
      Changes b timer action (b.timers timer)
  | expire {t : TimerlibTimer} (hexpire : (b.timers timer).expire = some t) :
      Changes b timer (.expire timer) t
  | wake {t : TimerlibTimer} {interrupted : Bool}
      (hwake : (b.timers timer).wake interrupted = some t) :
      Changes b timer (.wake timer interrupted) t
  | notify {first : Bool} {overrun : Int}
      (hthread : (b.timers timer).thread = .fired first overrun) :
      Changes b timer (.notify timer) { b.timers timer with thread := .storing first }
  | store {first : Bool} (hthread : (b.timers timer).thread = .storing first) :
      Changes b timer (.store timer) { b.timers timer with
        thread := if first then .testing else .waiting false }
  | test {t : TimerlibTimer} (htest : (b.timers timer).test = some t) :
      Changes b timer (.test timer) t
  | configure {t : TimerlibTimer} {ok dropped : Bool}
      (hconfigure : (b.timers timer).configure ok dropped = some t) :
      Changes b timer (.configure timer ok dropped) t
  | start {period initial effective : Timespec} {outcomes : Outcomes}
      (hidle : b.library = none ∧ (b.core.timers timer).isRunning = false) :
      Changes b timer (.start timer period initial outcomes)
        ((b.timers timer).start period effective outcomes).1
  | init : Changes b timer (.php (.init timer true)) {}
  | clear {period : Timespec}
      (hsmaller : (b.timers timer).period.isZero = true → period.isZero = true) :
      Changes b timer .library { b.timers timer with period := period }
  | close : Changes b timer .library (b.timers timer).close
  | join (hexited : (b.timers timer).thread = .exited) :
      Changes b timer .library { b.timers timer with thread := .absent }

section Inversion

variable {b next : State} {timer : TimerId}

/-- A step that writes the record of one timer. -/
theorem changes_setTimer {other : TimerId} {t : TimerlibTimer} {action : Action}
    (hother : other ≠ timer → action.ofHandler timer = false)
    (hself : other = timer → Changes b timer action t) :
    Changes b timer action ((b.setTimer other t).timers timer) := by
  change Changes b timer action (Function.update b.timers other t timer)
  by_cases heq : other = timer
  · subst heq
    rw [Function.update_self]
    exact hself rfl
  · rw [Function.update_of_ne (Ne.symm heq)]
    exact .kept (hother heq)

theorem phpStep_changes (move : Move) (hstep : phpStep b move = some next) :
    Changes b timer (.php move) (next.timers timer) := by
  cases move with
  | init other ok =>
      obtain ⟨rfl, hstep⟩ := Option.ite_none_right_eq_some.mp hstep
      obtain ⟨mid, hmid, rfl⟩ := Option.map_eq_some_iff.mp hstep
      obtain ⟨core, -, rfl⟩ := Option.map_eq_some_iff.mp hmid
      exact changes_setTimer (fun _ => rfl) fun heq => heq ▸ .init
  | start other period initial ok => cases hstep
  | stop other ok =>
      simp only [phpStep] at hstep
      split at hstep
      · cases hstep
        exact .kept rfl
      · exact congrFun ((Layered.coreStep_eq hstep).2) timer ▸ .kept rfl
  | destroy other =>
      obtain ⟨mid, hmid, rfl⟩ := Option.map_eq_some_iff.mp hstep
      have hsame := congrFun ((Layered.coreStep_eq hmid).2) timer
      split
      · split <;> exact hsame ▸ .kept rfl
      · exact hsame ▸ .kept rfl
  | destroyNext => exact congrFun ((Layered.coreStep_eq hstep).2) timer ▸ .kept rfl
  | interrupt => exact congrFun ((Layered.coreStep_eq hstep).2) timer ▸ .kept rfl
  | dequeue => exact congrFun ((Layered.coreStep_eq hstep).2) timer ▸ .kept rfl
  | call => exact congrFun ((Layered.coreStep_eq hstep).2) timer ▸ .kept rfl
  | ret => exact congrFun ((Layered.coreStep_eq hstep).2) timer ▸ .kept rfl

theorem libraryStep_changes {other : TimerId} {pc : StopPc}
    (hstep : libraryStep b other pc = some next) :
    Changes b timer .library (next.timers timer) := by
  cases pc with
  | clearSec =>
      cases hstep
      refine changes_setTimer (fun _ => rfl) ?_
      rintro rfl
      exact .clear (by simp [Timespec.isZero])
  | clearNsec =>
      cases hstep
      refine changes_setTimer (fun _ => rfl) ?_
      rintro rfl
      exact .clear (by simp +contextual [Timespec.isZero])
  | close =>
      cases hstep
      exact changes_setTimer (fun _ => rfl) fun heq => heq ▸ .close
  | join =>
      obtain ⟨hexited, hstep⟩ := Option.ite_none_right_eq_some.mp hstep
      have hjoined : Changes b timer .library
          ((b.setTimer other { b.timers other with thread := .absent }).timers timer) :=
        changes_setTimer (fun _ => rfl) fun heq => heq ▸ .join (heq ▸ hexited)
      dsimp only at hstep
      split at hstep
      · cases hstep
        exact hjoined
      · exact congrFun ((Layered.coreStep_eq hstep).2) timer ▸ hjoined

theorem step_changes (timer : TimerId) (action : Action) (hstep : step b action = some next) :
    Changes b timer action (next.timers timer) := by
  cases action with
  | expire other =>
      obtain ⟨t, hexpire, rfl⟩ := Option.map_eq_some_iff.mp hstep
      exact changes_setTimer (fun _ => rfl) fun heq => heq ▸ .expire (heq ▸ hexpire)
  | wake other interrupted =>
      obtain ⟨t, hwake, rfl⟩ := Option.map_eq_some_iff.mp hstep
      exact changes_setTimer (by simp [Action.ofHandler]) fun heq => heq ▸ .wake (heq ▸ hwake)
  | notify other =>
      simp only [step] at hstep
      split at hstep
      case h_1 first overrun hthread =>
        obtain ⟨mid, hmid, rfl⟩ := Option.map_eq_some_iff.mp hstep
        obtain ⟨core, -, rfl⟩ := Option.map_eq_some_iff.mp hmid
        refine changes_setTimer (by simp [Action.ofHandler]) ?_
        rintro rfl
        exact .notify hthread
      case h_2 => cases hstep
  | store other =>
      simp only [step] at hstep
      split at hstep
      case h_1 first hthread =>
        obtain ⟨mid, hmid, rfl⟩ := Option.map_eq_some_iff.mp hstep
        obtain ⟨core, -, rfl⟩ := Option.map_eq_some_iff.mp hmid
        refine changes_setTimer (by simp [Action.ofHandler]) ?_
        rintro rfl
        exact .store hthread
      case h_2 => cases hstep
  | test other =>
      obtain ⟨t, htest, rfl⟩ := Option.map_eq_some_iff.mp hstep
      exact changes_setTimer (by simp [Action.ofHandler]) fun heq => heq ▸ .test (heq ▸ htest)
  | configure other ok dropped =>
      obtain ⟨t, hconfigure, rfl⟩ := Option.map_eq_some_iff.mp hstep
      exact changes_setTimer (by simp [Action.ofHandler])
        fun heq => heq ▸ .configure (heq ▸ hconfigure)
  | raise => exact congrFun ((Layered.coreStep_eq hstep).2) timer ▸ .kept rfl
  | start other period initial outcomes =>
      obtain ⟨hidle, hstep⟩ := Option.ite_none_right_eq_some.mp hstep
      obtain ⟨mid, hmid, rfl⟩ := Option.map_eq_some_iff.mp hstep
      obtain ⟨core, -, rfl⟩ := Option.map_eq_some_iff.mp hmid
      split
      · refine changes_setTimer (fun _ => rfl) ?_
        rintro rfl
        exact .start hidle
      · exact .kept rfl
  | php move =>
      obtain ⟨-, hstep⟩ := Option.ite_none_right_eq_some.mp hstep
      exact phpStep_changes move hstep
  | library =>
      obtain ⟨call, -, hstep⟩ := Option.bind_eq_some_iff.mp hstep
      exact libraryStep_changes hstep

end Inversion

section Accounting

variable {b next : State} {timer : TimerId}

theorem start_discarded (t : TimerlibTimer) (period initial : Timespec) (outcomes : Outcomes) :
    (t.start period initial outcomes).1.discarded = t.discarded ∨
      (t.start period initial outcomes).1.discarded = t.discarded + t.queued := by
  unfold TimerlibTimer.start
  repeat' split
  all_goals first
    | exact Or.inl rfl
    | exact Or.inr rfl

theorem TimerOk.queued_nonneg {phase : Option StopPc} {t : TimerlibTimer}
    {handler : Option Handler} {running : Bool} {entered : Int}
    (h : TimerOk phase t handler running entered) : 0 ≤ t.queued := by
  unfold TimerlibTimer.queued
  cases hqueue : t.queue with
  | none => simp
  | some queue => simpa using (h.queue_range queue hqueue).1

theorem TimerOk.count_nonneg {phase : Option StopPc} {t : TimerlibTimer}
    {handler : Option Handler} {running : Bool} {entered : Int}
    (h : TimerOk phase t handler running entered) : 0 ≤ t.thread.count := by
  cases hthread : t.thread with
  | fired first overrun =>
      have := (h.thread_range first overrun hthread).1
      simp only [ThreadPc.count]
      omega
  | _ => simp [ThreadPc.count]

theorem discarded_step (h : Inv b) (hnonneg : 0 ≤ (b.timers timer).discarded) (action : Action)
    (hstep : step b action = some next) : 0 ≤ (next.timers timer).discarded := by
  have hqueued := (h.timers timer).queued_nonneg
  have hchange := step_changes timer action hstep
  generalize next.timers timer = t at hchange ⊢
  cases hchange with
  | kept => exact hnonneg
  | expire hexpire =>
      unfold TimerlibTimer.expire at hexpire
      repeat' split at hexpire
      all_goals cases hexpire
      all_goals exact hnonneg
  | wake hwake =>
      unfold TimerlibTimer.wake at hwake
      repeat' split at hwake
      all_goals cases hwake
      all_goals exact hnonneg
  | notify => exact hnonneg
  | store => exact hnonneg
  | test htest =>
      obtain ⟨-, heq⟩ := Option.ite_none_right_eq_some.mp htest
      cases heq
      exact hnonneg
  | @configure _ ok dropped hconfigure =>
      obtain ⟨-, heq⟩ := Option.ite_none_right_eq_some.mp hconfigure
      split at heq
      case h_1 _ _ queue hqueue =>
        cases heq
        have := ((h.timers timer).queue_range queue hqueue).1
        dsimp only
        split <;> omega
      case h_2 =>
        cases heq
        exact hnonneg
  | @start period initial effective outcomes =>
      rcases start_discarded (b.timers timer) period effective outcomes with heq | heq <;>
        rw [heq] <;> omega
  | init => exact le_rfl
  | clear => exact hnonneg
  | close =>
      change 0 ≤ (b.timers timer).discarded + (b.timers timer).queued
      omega
  | join => exact hnonneg

theorem discarded_nonneg (hreach : Reachable b) (timer : TimerId) :
    0 ≤ (b.timers timer).discarded := by
  refine Transition.Reachable.invariant_with Inv (fun b => 0 ≤ (b.timers timer).discarded)
    (fun b => reachable_inv) ?_ ?_ hreach
  · rintro _ rfl
    exact le_rfl
  · intro b action next h hnonneg hstep
    exact discarded_step h hnonneg action hstep

end Accounting

/-- Where the expirations are that the kernel has counted since a timer was
initialised: passed to the callback, on the way to it inside `excimer_timer.c`,
fetched by the handler thread, in the queue, or dropped with a queue. None is
passed on twice or made up. -/
theorem expirations_conserved {b : State} (hreach : Reachable b) {timer : TimerId}
    (hserved : Served b.core timer) :
    delivered timer b.core.trace + held timer b.core + (b.timers timer).thread.count +
        (b.timers timer).queued + (b.timers timer).discarded = (b.timers timer).reported ∧
      delivered timer b.core.trace + held timer b.core ≤ (b.timers timer).reported ∧
      0 ≤ held timer b.core := by
  have hok := (reachable_inv hreach).timers timer
  have hcoreReach := core_reachable hreach
  obtain ⟨order, hcore⟩ := Timer.reachable_inv hcoreReach
  have hhandler : b.core.handlers timer ≠ none :=
    Option.isSome_iff_ne_none.mp ((hcore.served timer).mpr hserved)
  have hlibrary := hok.balance hhandler
  have hpassed := hcore.balance timer (Timer.Inv.served_tracked hserved)
  have hqueued := hok.queued_nonneg
  have hcount := hok.count_nonneg
  have hdiscarded := discarded_nonneg hreach timer
  have hevents := reachable_nonneg hcoreReach timer
  have hflight := hcore.inFlight_nonneg timer
  unfold held
  omega

/-- A periodic timer expires four times. The first expiration has reached the
callback, the handler thread has fetched two more, and one is in the queue. -/
def fourExpirations : List Action :=
  [.php (.init 5 true), .start 5 ⟨0, 1000⟩ ⟨0, 0⟩ ⟨true, true, true⟩, .expire 5, .wake 5 false,
    .notify 5, .store 5, .php .interrupt, .php .dequeue, .test 5, .configure 5 true false,
    .php .call, .php .ret, .php .dequeue, .expire 5, .expire 5, .wake 5 false, .expire 5]

theorem expirations_conserved_fourExpirations :
    ∃ b, Transition.run step State.initial fourExpirations = some b ∧
      delivered 5 b.core.trace = 1 ∧ (b.timers 5).thread = .fired false 1 ∧
      delivered 5 b.core.trace + held 5 b.core + (b.timers 5).thread.count +
        (b.timers 5).queued + (b.timers 5).discarded = (b.timers 5).reported := by
  obtain ⟨b, hrun, hcheck⟩ := Transition.run_check step State.initial fourExpirations
    (fun b => delivered 5 b.core.trace == 1 && (b.timers 5).thread == .fired false 1 &&
      ((b.core.timers 5).isValid && b.core.stack 0 == [])) (by decide)
  simp only [Bool.and_eq_true, beq_iff_eq] at hcheck
  obtain ⟨⟨hdelivered, hthread⟩, hvalid, hstack⟩ := hcheck
  have hserved : Served b.core 5 := ⟨hvalid, by simp [hstack]⟩
  exact ⟨b, hrun, hdelivered, hthread,
    (expirations_conserved ⟨State.initial, _, rfl, hrun⟩ hserved).1⟩

/-- The queue's timer is armed, or has expired for the first time, or the handler
thread is about to arm it again. -/
def TimerlibTimer.rearms (t : TimerlibTimer) : Bool :=
  match t.thread with
  | .waiting true => t.queue.any fun queue => queue.armed.isSome || decide (0 < queue.expired)
  | .waiting false => t.queue.any fun queue => queue.armed == some false
  | .fired first _ | .storing first => first || t.queue.any fun queue => queue.armed == some false
  | .testing | .configuring => true
  | .absent | .exited => false

section Rearming

variable {b next : State} {timer : TimerId}

/-- The exceptions are a timer without a thread, one that is being stopped, and
one that was started to expire once. -/
def TimerlibTimer.Serving (t : TimerlibTimer) : Prop :=
  t.thread = .absent ∨ t.queue = none ∨ t.period.isZero = true ∨ t.rearms = true

theorem TimerlibTimer.Serving.move {t t' : TimerlibTimer} (h : t.Serving)
    (habsent : t.thread = .absent → t'.thread = .absent)
    (hclosed : t.queue = none → t'.queue = none) (hperiod : t'.period = t.period)
    (hrearms : ∀ queue, t.queue = some queue → t.rearms = true →
      t'.period.isZero = true ∨ t'.rearms = true) : t'.Serving := by
  rcases h with hnever | hnone | hzero | hbefore
  · exact Or.inl (habsent hnever)
  · exact Or.inr (Or.inl (hclosed hnone))
  · exact Or.inr (Or.inr (Or.inl (hperiod ▸ hzero)))
  · cases hqueue : t.queue with
    | none => exact Or.inr (Or.inl (hclosed hqueue))
    | some queue => exact Or.inr (Or.inr (hrearms queue hqueue hbefore))

theorem expire_rearms {t t' : TimerlibTimer} {queue : Queue} (hqueue : t.queue = some queue)
    (hnonneg : 0 ≤ queue.expired) (hrearms : t.rearms = true) (hexpire : t.expire = some t') :
    t'.rearms = true := by
  obtain ⟨armed, expired⟩ := queue
  unfold TimerlibTimer.expire at hexpire
  rw [hqueue] at hexpire
  cases armed with
  | none => cases hexpire
  | some oneShot =>
      obtain ⟨-, heq⟩ := Option.ite_none_right_eq_some.mp hexpire
      cases heq
      dsimp only at hnonneg
      unfold TimerlibTimer.rearms at hrearms ⊢
      rw [hqueue] at hrearms
      dsimp only
      split at hrearms
      case h_1 =>
        simp only [Option.any_some, Bool.or_eq_true, decide_eq_true_eq]
        exact Or.inr (by omega)
      case h_2 => cases oneShot <;> simp_all
      case h_3 => cases oneShot <;> simp_all
      case h_4 => cases oneShot <;> simp_all
      case h_5 => rfl
      case h_6 => rfl
      case h_7 => cases hrearms
      case h_8 => cases hrearms

theorem wake_rearms {t t' : TimerlibTimer} {queue : Queue} (hqueue : t.queue = some queue)
    (hrearms : t.rearms = true) {interrupted : Bool} (hwake : t.wake interrupted = some t') :
    t'.rearms = true := by
  unfold TimerlibTimer.wake at hwake
  rw [hqueue] at hwake
  split at hwake
  case h_1 first hthread =>
    dsimp only at hwake
    split at hwake
    · cases hwake
      cases first with
      | true => rfl
      | false =>
          simp only [TimerlibTimer.rearms, hthread, hqueue] at hrearms ⊢
          exact hrearms
    · obtain ⟨-, heq⟩ := Option.ite_none_right_eq_some.mp hwake
      cases heq
      cases first with
      | true => rfl
      | false =>
          simp only [TimerlibTimer.rearms, hthread, hqueue] at hrearms ⊢
          exact hrearms
  case h_2 => cases hwake

/-- A started timer is armed. -/
theorem start_serving {t : TimerlibTimer} (habsent : t.thread = .absent)
    (period initial : Timespec) (outcomes : Outcomes) :
    (t.start period initial outcomes).1.Serving := by
  unfold TimerlibTimer.start
  repeat' split
  case isTrue.isTrue.isTrue =>
    refine Or.inr (Or.inr (Or.inr ?_))
    cases hfirst : initial.isZero <;> simp [TimerlibTimer.rearms]
  all_goals exact Or.inl habsent

theorem serving_step (h : Inv b) (hserving : (b.timers timer).Serving) (action : Action)
    (haccepted : ∀ dropped, action ≠ .configure timer false dropped)
    (hstep : step b action = some next) : (next.timers timer).Serving := by
  have hok := h.timers timer
  have hchange := step_changes timer action hstep
  generalize next.timers timer = t at hchange ⊢
  cases hchange with
  | kept => exact hserving
  | expire hexpire =>
      have hsame : t.thread = (b.timers timer).thread ∧ t.period = (b.timers timer).period ∧
          ((b.timers timer).queue = none → t.queue = none) := by
        unfold TimerlibTimer.expire at hexpire
        repeat' split at hexpire
        all_goals cases hexpire
        all_goals simp_all
      refine hserving.move hsame.1.trans hsame.2.2 hsame.2.1 ?_
      intro queue hqueue hrearms
      exact Or.inr (expire_rearms hqueue (hok.queue_range queue hqueue).1 hrearms hexpire)
  | wake hwake =>
      have hsame : (b.timers timer).thread ≠ .absent ∧ t.period = (b.timers timer).period ∧
          ((b.timers timer).queue = none → t.queue = none) := by
        unfold TimerlibTimer.wake at hwake
        repeat' split at hwake
        all_goals cases hwake
        all_goals simp_all
      refine hserving.move (absurd · hsame.1) hsame.2.2 hsame.2.1 ?_
      intro queue hqueue hrearms
      exact Or.inr (wake_rearms hqueue hrearms hwake)
  | notify hthread =>
      refine hserving.move (by simp [hthread]) id rfl ?_
      intro queue hqueue hrearms
      simpa [TimerlibTimer.rearms, hthread] using Or.inr hrearms
  | @store first hthread =>
      refine hserving.move (by simp [hthread]) id rfl ?_
      intro queue hqueue hrearms
      cases first with
      | true => exact Or.inr rfl
      | false => simpa [TimerlibTimer.rearms, hthread] using Or.inr hrearms
  | test htest =>
      obtain ⟨hthread, heq⟩ := Option.ite_none_right_eq_some.mp htest
      cases heq
      refine hserving.move (by simp [hthread]) id rfl ?_
      intro queue hqueue hrearms
      cases hzero : (b.timers timer).period.isZero with
      | true => exact Or.inl rfl
      | false => exact Or.inr rfl
  | @configure _ ok dropped hconfigure =>
      obtain ⟨-, heq⟩ := Option.ite_none_right_eq_some.mp hconfigure
      cases ok with
      | false => exact absurd rfl (haccepted dropped)
      | true =>
          -- an accepted call fails only because the queue has been closed
          cases hqueue : (b.timers timer).queue with
          | none =>
              rw [hqueue] at heq
              cases heq
              exact Or.inr (Or.inl rfl)
          | some queue =>
              rw [hqueue] at heq
              cases heq
              exact Or.inr (Or.inr (Or.inr (by simp [TimerlibTimer.rearms])))
  | @start period initial effective outcomes hidle =>
      have habsent := hok.absent.mpr ⟨hidle.2, phase_none hidle.1 timer⟩
      exact start_serving habsent period effective outcomes
  | init => exact Or.inl rfl
  | clear hsmaller =>
      rcases hserving with habsent | hnone | hzero | hrearms
      · exact Or.inl habsent
      · exact Or.inr (Or.inl hnone)
      · exact Or.inr (Or.inr (Or.inl (hsmaller hzero)))
      · exact Or.inr (Or.inr (Or.inr hrearms))
  | close => exact Or.inr (Or.inl rfl)
  | join => exact Or.inl rfl

end Rearming

/-- As long as the kernel accepts the reconfiguration of its queue, a timer that
runs has a queue and a handler thread, and unless it was started to expire once it
is armed or about to be armed again. The thread does not end by itself. -/
theorem running_rearms {b : State} {actions : List Action} {timer : TimerId}
    (hrun : Transition.run step State.initial actions = some b)
    (haccepted : ∀ dropped, .configure timer false dropped ∉ actions)
    (hrunning : (b.core.timers timer).isRunning = true) (houtside : b.phase timer = none) :
    (b.timers timer).queue ≠ none ∧ (b.timers timer).thread ≠ .absent ∧
      ((b.timers timer).period.isZero = false →
        (b.timers timer).thread ≠ .exited ∧ (b.timers timer).rearms = true) := by
  have hreach : Reachable b := ⟨State.initial, actions, rfl, hrun⟩
  have hok := (reachable_inv hreach).timers timer
  have hlive : (b.timers timer).thread ≠ .absent := by simp [hok.absent, hrunning]
  have hopen : (b.timers timer).queue ≠ none := by simp [hok.queue hlive, houtside]
  have hserving : Reachable b ∧ (b.timers timer).Serving := by
    refine Transition.run_invariant_of
      (fun action => ∀ dropped, action ≠ .configure timer false dropped)
      (fun b => Reachable b ∧ (b.timers timer).Serving) ?_ ?_ ?_ hrun
    · rintro b action next haccepted ⟨hreach, hserving⟩ hstep
      exact ⟨hreach.step_from hstep,
        serving_step (reachable_inv hreach) hserving action haccepted hstep⟩
    · intro action hmem dropped heq
      exact haccepted dropped (heq ▸ hmem)
    · exact ⟨Transition.Reachable.start rfl, Or.inl rfl⟩
  refine ⟨hopen, hlive, ?_⟩
  intro hperiodic
  have hrearms : (b.timers timer).rearms = true := by
    rcases hserving.2 with habsent | hnone | hzero | hrearms
    · exact absurd habsent hlive
    · exact absurd hnone hopen
    · rw [hperiodic] at hzero
      cases hzero
    · exact hrearms
  refine ⟨?_, hrearms⟩
  intro hexited
  simp [TimerlibTimer.rearms, hexited] at hrearms

theorem running_rearms_fourExpirations :
    ∃ b, Transition.run step State.initial fourExpirations = some b ∧
      (b.timers 5).thread ≠ .exited ∧ (b.timers 5).rearms = true := by
  obtain ⟨b, hrun, hcheck⟩ := Transition.run_check step State.initial fourExpirations
    (fun b => (b.core.timers 5).isRunning && b.phase 5 == none && !(b.timers 5).period.isZero)
    (by decide)
  simp only [Bool.and_eq_true, beq_iff_eq, Bool.not_eq_true'] at hcheck
  obtain ⟨⟨hrunning, houtside⟩, hperiodic⟩ := hcheck
  exact ⟨b, hrun, (running_rearms hrun (by simp [fourExpirations]) hrunning houtside).2.2 hperiodic⟩

section Silence

variable {b next : State} {timer : TimerId}

/-- Only a start creates a handler thread. -/
theorem absent_step (habsent : (b.timers timer).thread = .absent) (action : Action)
    (hstart : ∀ period initial outcomes, action ≠ .start timer period initial outcomes)
    (hstep : step b action = some next) : (next.timers timer).thread = .absent := by
  have hchange := step_changes timer action hstep
  generalize next.timers timer = t at hchange ⊢
  cases hchange with
  | kept => exact habsent
  | expire hexpire =>
      unfold TimerlibTimer.expire at hexpire
      repeat' split at hexpire
      all_goals cases hexpire
      all_goals exact habsent
  | wake hwake => simp [TimerlibTimer.wake, habsent] at hwake
  | notify hthread => simp [habsent] at hthread
  | store hthread => simp [habsent] at hthread
  | test htest => simp [TimerlibTimer.test, habsent] at htest
  | configure hconfigure => simp [TimerlibTimer.configure, habsent] at hconfigure
  | start => exact (hstart _ _ _ rfl).elim
  | init => rfl
  | clear => exact habsent
  | close => exact habsent
  | join => rfl

/-- Initialising a timer forgets its count. -/
theorem init_held {s after : Timer.State} {ok : Bool} (hreach : Timer.Reachable .nonZts s)
    (hstep : Timer.step .nonZts s (.php 0 (.init timer ok)) = some after) :
    ∃ new, after.trace = new ++ s.trace ∧ passed timer new + held timer after ≤ held timer s := by
  have hnonneg := reachable_nonneg hreach timer
  obtain ⟨-, heq⟩ := Option.ite_none_right_eq_some.mp (step_php hstep).2
  cases heq
  have hcount : ((timerInit .nonZts 0 s timer ok).timers timer).eventCount = 0 := by
    cases ok <;> simp [timerInit, Timer.State.record, Timer.State.setTimer]
  have hstack : (timerInit .nonZts 0 s timer ok).stack = s.stack := by cases ok <;> rfl
  refine ⟨[.init timer ok], by cases ok <;> rfl, ?_⟩
  simp only [passed, held, hcount, hstack]
  omega

theorem absent_silent (hreach : Reachable b) (habsent : (b.timers timer).thread = .absent)
    (action : Action) (hstep : step b action = some next) :
    ∃ new, next.core.trace = new ++ b.core.trace ∧
      (∀ overrunCount, .handle timer overrunCount ∉ new) ∧
      passed timer new + held timer next.core ≤ held timer b.core := by
  have hcoreReach := core_reachable hreach
  obtain ⟨order, hcore⟩ := Timer.reachable_inv hcoreReach
  rcases step_core action hstep with hsame | ⟨own, hown, hnotify⟩
  · exact ⟨[], by rw [hsame]; rfl, by simp, by simp [hsame, passed]⟩
  · -- the thread is not there to call `excimer_timer_handle`
    have hquiet (overrunCount : Int) : own ≠ .handle timer overrunCount := by
      intro heq
      rw [hnotify timer overrunCount heq] at hstep
      simp [step, habsent] at hstep
    obtain ⟨new, htrace, hreports⟩ := step_reports hcore own hown
    refine ⟨new, htrace, fun overrunCount hmem => hquiet _ (hreports _ _ hmem), ?_⟩
    by_cases hinit : ∃ number ok, own = .php number (.init timer ok)
    · obtain ⟨number, ok, rfl⟩ := hinit
      obtain ⟨rfl, -⟩ := step_php hown
      obtain ⟨new', htrace', hheld⟩ := init_held hcoreReach hown
      rwa [List.append_cancel_right (htrace'.symm.trans htrace)] at hheld
    · simp only [not_exists] at hinit
      obtain ⟨⟨new', htrace', hheld⟩, -⟩ := step_flow hcore timer own hinit hown
      have hentering : own.entering timer = 0 := by
        unfold Action.entering
        split
        case h_1 other overrunCount =>
          rw [if_neg]
          rintro rfl
          exact hquiet overrunCount rfl
        case h_2 => rfl
      rw [List.append_cancel_right (htrace'.symm.trans htrace), hentering] at hheld
      omega

end Silence

/-- A timer that does not run, and is not just being stopped, has no handler
thread. Until it is started again, `excimer_timer_handle` is not called for it, and
its callback gets at most what was already held for it. -/
theorem stopped_silent {b later : State} (hreach : Reachable b) {timer : TimerId}
    (hstopped : (b.core.timers timer).isRunning = false) (houtside : b.phase timer = none)
    {actions : List Action} (hrun : Transition.run step b actions = some later)
    (hstart : ∀ period initial outcomes, .start timer period initial outcomes ∉ actions) :
    (later.timers timer).thread = .absent ∧
      ∃ newer, later.core.trace = newer ++ b.core.trace ∧
        (∀ overrunCount, .handle timer overrunCount ∉ newer) ∧
        passed timer newer + held timer later.core ≤ held timer b.core := by
  have habsent := ((reachable_inv hreach).timers timer).absent.mpr ⟨hstopped, houtside⟩
  clear hstopped houtside
  induction actions generalizing b with
  | nil =>
      have hsame : b = later := Option.some.inj hrun
      subst hsame
      exact ⟨habsent, [], rfl, by simp, by simp [passed]⟩
  | cons action rest ih =>
      obtain ⟨next, hstep, hrest⟩ := Transition.run_cons hrun
      simp only [List.mem_cons, not_or] at hstart
      have hnext := absent_step habsent action
        (fun period initial outcomes => Ne.symm (hstart period initial outcomes).1) hstep
      obtain ⟨new, htrace, hnew, hheld⟩ := absent_silent hreach habsent action hstep
      obtain ⟨hlater, newer, htrace', hnewer, hheld'⟩ := ih (hreach.step_from hstep) hrest
        (fun period initial outcomes => (hstart period initial outcomes).2) hnext
      refine ⟨hlater, newer ++ new, ?_, ?_, ?_⟩
      · rw [htrace', htrace, List.append_assoc]
      · intro overrunCount hmem
        rcases List.mem_append.mp hmem with hmem | hmem
        · exact hnewer overrunCount hmem
        · exact hnew overrunCount hmem
      · rw [passed_append]
        omega

/-- The timer is stopped while its handler thread has an expiration in hand,
which is reported before the thread finds the queue closed. -/
def stopsAfterReport : List Action :=
  [.php (.init 5 true), .start 5 ⟨0, 1000⟩ ⟨0, 0⟩ ⟨true, true, true⟩, .expire 5, .wake 5 false,
    .php (.stop 5 true), .library, .library, .library, .notify 5, .store 5, .test 5, .library]

theorem stopped_silent_stopsAfterReport :
    ∃ b later, Transition.run step State.initial stopsAfterReport = some b ∧
      Transition.run step b [.php .interrupt, .php .dequeue, .php .call] = some later ∧
      held 5 b.core = 1 ∧ (later.timers 5).thread = .absent ∧
      ∃ newer, later.core.trace = newer ++ b.core.trace ∧
        passed 5 newer + held 5 later.core ≤ held 5 b.core := by
  obtain ⟨b, hrun, hcheck⟩ := Transition.run_check step State.initial stopsAfterReport
    (fun b => held 5 b.core == 1 && !(b.core.timers 5).isRunning && b.phase 5 == none &&
      (Transition.run step b [.php .interrupt, .php .dequeue, .php .call]).isSome) (by decide)
  simp only [Bool.and_eq_true, beq_iff_eq, Bool.not_eq_true'] at hcheck
  obtain ⟨⟨⟨hheld, hstopped⟩, houtside⟩, hlater⟩ := hcheck
  obtain ⟨later, hlater⟩ := Option.isSome_iff_exists.mp hlater
  obtain ⟨habsent, newer, htrace, -, hpassed⟩ := stopped_silent
    ⟨State.initial, _, rfl, hrun⟩ hstopped houtside hlater (by simp)
  exact ⟨b, later, hrun, hlater, hheld, habsent, newer, htrace, hpassed⟩

end Excimer.Timer.KqueueThreads
