import Excimer.Timer.KqueueThreads

/-!
Starting and stopping a timer over the kqueue library, against its handler
thread. Until the queue is closed the thread finds it open, and from then on
every call of the thread fails, so that it exits; a timer that does not run has
no thread at all.
-/

namespace Excimer.Timer.KqueueThreads

open Kqueue (Outcomes)

section Core

variable {b mid next : State}

theorem phpStep_core (move : Move) (hstep : phpStep b move = some next) :
    next.core = b.core ∨
      ∃ own, Timer.step .nonZts b.core (.php 0 own) = some next.core := by
  cases move with
  | init timer ok =>
      obtain ⟨-, hstep⟩ := Option.ite_none_right_eq_some.mp hstep
      obtain ⟨mid, hmid, rfl⟩ := Option.map_eq_some_iff.mp hstep
      exact Or.inr ⟨_, (Layered.coreStep_eq hmid).1⟩
  | start timer period initial ok => cases hstep
  | stop timer ok =>
      simp only [phpStep] at hstep
      split at hstep
      · cases hstep
        exact Or.inl rfl
      · exact Or.inr ⟨_, (Layered.coreStep_eq hstep).1⟩
  | destroy timer =>
      obtain ⟨mid, hmid, rfl⟩ := Option.map_eq_some_iff.mp hstep
      refine Or.inr ⟨_, Layered.coreStep_core hmid ?_⟩
      split
      · split <;> rfl
      · rfl
  | destroyNext => exact Or.inr ⟨_, (Layered.coreStep_eq hstep).1⟩
  | interrupt => exact Or.inr ⟨_, (Layered.coreStep_eq hstep).1⟩
  | dequeue => exact Or.inr ⟨_, (Layered.coreStep_eq hstep).1⟩
  | call => exact Or.inr ⟨_, (Layered.coreStep_eq hstep).1⟩
  | ret => exact Or.inr ⟨_, (Layered.coreStep_eq hstep).1⟩

theorem libraryStep_core {timer : TimerId} {pc : StopPc}
    (hstep : libraryStep b timer pc = some next) :
    next.core = b.core ∨
      ∃ own, Timer.step .nonZts b.core (.php 0 own) = some next.core := by
  cases pc with
  | join =>
      obtain ⟨-, hstep⟩ := Option.ite_none_right_eq_some.mp hstep
      dsimp only at hstep
      split at hstep
      · cases hstep
        exact Or.inl rfl
      · obtain ⟨core, hown, rfl⟩ := Option.map_eq_some_iff.mp hstep
        exact Or.inr ⟨_, hown⟩
  | _ =>
      cases hstep
      exact Or.inl rfl

/-- The library does not add behaviour to `excimer_timer.c`, and only a handler
thread calls `excimer_timer_handle`. -/
theorem step_core (action : Action) (hstep : step b action = some next) :
    next.core = b.core ∨ ∃ own, Timer.step .nonZts b.core own = some next.core ∧
      ∀ timer overrun, own = .handle timer overrun → action = .notify timer := by
  cases action with
  | expire timer =>
      obtain ⟨t, -, rfl⟩ := Option.map_eq_some_iff.mp hstep
      exact Or.inl rfl
  | wake timer interrupted =>
      obtain ⟨t, -, rfl⟩ := Option.map_eq_some_iff.mp hstep
      exact Or.inl rfl
  | notify timer =>
      simp only [step] at hstep
      split at hstep
      · obtain ⟨mid, hmid, rfl⟩ := Option.map_eq_some_iff.mp hstep
        exact Or.inr ⟨_, (Layered.coreStep_eq hmid).1, by rintro _ _ ⟨rfl⟩; rfl⟩
      · cases hstep
  | store timer =>
      simp only [step] at hstep
      split at hstep
      · obtain ⟨mid, hmid, rfl⟩ := Option.map_eq_some_iff.mp hstep
        exact Or.inr ⟨_, (Layered.coreStep_eq hmid).1, by simp⟩
      · cases hstep
  | test timer =>
      obtain ⟨t, -, rfl⟩ := Option.map_eq_some_iff.mp hstep
      exact Or.inl rfl
  | configure timer ok dropped =>
      obtain ⟨t, -, rfl⟩ := Option.map_eq_some_iff.mp hstep
      exact Or.inl rfl
  | raise => exact Or.inr ⟨_, (Layered.coreStep_eq hstep).1, by simp⟩
  | start timer period initial outcomes =>
      obtain ⟨-, hstep⟩ := Option.ite_none_right_eq_some.mp hstep
      obtain ⟨mid, hmid, rfl⟩ := Option.map_eq_some_iff.mp hstep
      refine Or.inr ⟨_, Layered.coreStep_core hmid ?_, by simp⟩
      split <;> rfl
  | php move =>
      obtain ⟨-, hstep⟩ := Option.ite_none_right_eq_some.mp hstep
      exact (phpStep_core move hstep).imp_right fun ⟨own, hown⟩ => ⟨_, hown, by simp⟩
  | library =>
      obtain ⟨call, -, hstep⟩ := Option.bind_eq_some_iff.mp hstep
      exact (libraryStep_core hstep).imp_right fun ⟨own, hown⟩ => ⟨_, hown, by simp⟩

end Core

theorem core_reachable {b : State} (hreach : Reachable b) : Timer.Reachable .nonZts b.core := by
  refine Transition.Reachable.project Layered.core ?_ ?_ hreach
  · rintro _ rfl
    rfl
  · intro b action next hstep
    exact (step_core action hstep).imp_right fun ⟨own, hown, _⟩ => ⟨own, hown⟩

/-- The step of `timerlib_timer_stop` that the PHP thread takes for a timer. -/
def State.phase (b : State) (timer : TimerId) : Option StopPc :=
  b.library.bind fun call => if call.1 = timer then some call.2 else none

/-- The expirations that the handler thread has fetched and not passed on. -/
def ThreadPc.count : ThreadPc → Int
  | .fired _ overrun => overrun + 1
  | _ => 0

/-- What the library knows about one timer: `handler` and `running` are the
handler thread and `is_running` as `excimer_timer.c` sees them, and `entered`
is the sum of the expirations `excimer_timer_handle` has been told. -/
structure TimerOk (phase : Option StopPc) (t : TimerlibTimer) (handler : Option Handler)
    (running : Bool) (entered : Int) : Prop where
  absent : t.thread = .absent ↔ running = false ∧ phase = none
  served : t.thread ≠ .absent → handler ≠ none
  storing : (∃ first, t.thread = .storing first) ↔ ∃ number, handler = some ⟨number, true⟩
  queue : t.thread ≠ .absent → (t.queue = none ↔ phase = some .join)
  queue_range : ∀ queue, t.queue = some queue → 0 ≤ queue.expired ∧ queue.expired ≤ intMax
  thread_range : ∀ first overrun, t.thread = .fired first overrun → InRange overrun
  balance : handler ≠ none → entered + t.thread.count + t.queued + t.discarded = t.reported
  clearing : phase = some .clearNsec → t.period.tvSec = 0
  cleared : phase = some .close ∨ phase = some .join → t.period.isZero = true
  exited : phase = none → t.thread = .exited → t.period.isZero = true ∨ t.complained = true

structure Inv (b : State) : Prop where
  timers : ∀ timer, TimerOk (b.phase timer) (b.timers timer) (b.core.handlers timer)
    (b.core.timers timer).isRunning (handled timer b.core.trace)
  caller : ∀ timer pc, b.library = some (timer, pc) →
    b.core.runsPhp 0 = true ∧ (b.core.timers timer).isValid = true ∧
        (b.core.timers timer).isRunning = true ∨
      (b.core.stack 0).head? = some (.destroy timer .timerlib)
  destroying : ∀ timer, (b.core.stack 0).head? = some (.destroy timer .timerlib) →
    (b.core.timers timer).isRunning = false

theorem initial_inv : Inv State.initial where
  timers timer := by
    constructor <;> simp [State.initial, Timer.State.initial, State.phase]
  caller := by simp [State.initial]
  destroying := by simp [State.initial, Timer.State.initial]

theorem intMax_nonneg : 0 ≤ intMax := by decide

namespace TimerOk

variable {phase : Option StopPc} {t t' : TimerlibTimer} {handler : Option Handler}
  {running : Bool} {entered : Int}

theorem expire (h : TimerOk phase t handler running entered) (hexpire : t.expire = some t') :
    TimerOk phase t' handler running entered := by
  unfold TimerlibTimer.expire at hexpire
  split at hexpire
  case h_2 => cases hexpire
  case h_1 oneShot expired hqueue =>
    obtain ⟨hbound, heq⟩ := Option.ite_none_right_eq_some.mp hexpire
    cases heq
    have hrange := h.queue_range _ hqueue
    have hbalance := h.balance
    simp only [TimerlibTimer.queued, hqueue, Option.map_some, Option.getD_some] at hbalance
    refine ⟨h.absent, h.served, h.storing, ?_, ?_, h.thread_range, ?_, h.clearing, h.cleared,
      h.exited⟩
    · intro hthread
      simpa [hqueue] using h.queue hthread
    · rintro queue ⟨rfl⟩
      exact ⟨by dsimp only at hrange ⊢; omega, hbound⟩
    · intro hhandler
      have := hbalance hhandler
      simp only [TimerlibTimer.queued, Option.map_some, Option.getD_some]
      omega

/-- The handler thread moves on without passing anything on. -/
theorem move (h : TimerOk phase t handler running entered) (thread : ThreadPc)
    (hlive : t.thread ≠ .absent) (hstill : ∀ first, t.thread ≠ .storing first)
    (hcount : t.thread.count = 0)
    (hnext : thread = .testing ∨ thread = .configuring ∨ thread = .waiting false ∨
      thread = .exited ∧ (phase = none → t.period.isZero = true ∨ t.complained = true)) :
    TimerOk phase { t with thread := thread } handler running entered := by
  have hhandler : ¬∃ number, handler = some ⟨number, true⟩ := by
    rw [← h.storing]
    rintro ⟨first, hstoring⟩
    exact hstill first hstoring
  have habsent := h.absent
  have hbalance := h.balance
  simp only [hlive, false_iff] at habsent
  rw [hcount] at hbalance
  rcases hnext with rfl | rfl | rfl | ⟨rfl, hexited⟩
  · exact ⟨by simpa using habsent, fun _ => h.served hlive, by simpa using hhandler,
      fun _ => h.queue hlive, h.queue_range, by simp, hbalance, h.clearing, h.cleared, by simp⟩
  · exact ⟨by simpa using habsent, fun _ => h.served hlive, by simpa using hhandler,
      fun _ => h.queue hlive, h.queue_range, by simp, hbalance, h.clearing, h.cleared, by simp⟩
  · exact ⟨by simpa using habsent, fun _ => h.served hlive, by simpa using hhandler,
      fun _ => h.queue hlive, h.queue_range, by simp, hbalance, h.clearing, h.cleared, by simp⟩
  · exact ⟨by simpa using habsent, fun _ => h.served hlive, by simpa using hhandler,
      fun _ => h.queue hlive, h.queue_range, by simp, hbalance, h.clearing, h.cleared,
      fun hphase _ => hexited hphase⟩

theorem wake (h : TimerOk phase t handler running entered) {interrupted : Bool}
    (hwake : t.wake interrupted = some t') : TimerOk phase t' handler running entered := by
  unfold TimerlibTimer.wake at hwake
  split at hwake
  case h_2 => cases hwake
  case h_1 first hthread =>
    have hlive : t.thread ≠ .absent := by simp [hthread]
    have hmove {thread : ThreadPc} := h.move thread hlive (by simp [hthread])
      (by simp [hthread, ThreadPc.count])
    split at hwake
    case h_1 hqueue =>
      cases hwake
      refine hmove (Or.inr (Or.inr (Or.inr ⟨rfl, fun hphase => ?_⟩)))
      have hjoin := (h.queue hlive).mp hqueue
      rw [hphase] at hjoin
      cases hjoin
    case h_2 queue hqueue =>
      split at hwake
      · cases hwake
        cases first with
        | true => exact hmove (Or.inl rfl)
        | false => exact hmove (Or.inr (Or.inr (Or.inl rfl)))
      · obtain ⟨hpositive, heq⟩ := Option.ite_none_right_eq_some.mp hwake
        cases heq
        have hrange := h.queue_range queue hqueue
        have hhandler := h.storing
        have habsent := h.absent
        have hbalance := h.balance
        have hopen := h.queue hlive
        simp only [hthread, reduceCtorEq, exists_false, false_iff] at hhandler habsent
        simp only [TimerlibTimer.queued, hqueue, hthread, ThreadPc.count, Option.map_some,
          Option.getD_some] at hbalance
        refine ⟨by simpa using habsent, fun _ => h.served hlive, by simpa using hhandler,
          ?_, ?_, ?_,
          ?_, h.clearing, h.cleared, by simp⟩
        · simpa [hqueue] using hopen
        · rintro _ ⟨rfl⟩
          exact ⟨le_rfl, intMax_nonneg⟩
        · rintro _ overrun ⟨⟩
          exact ⟨by omega, by omega⟩
        · intro hsome
          have := hbalance hsome
          simp only [TimerlibTimer.queued, ThreadPc.count, Option.map_some, Option.getD_some]
          omega

theorem test (h : TimerOk phase t handler running entered) (htest : t.test = some t') :
    TimerOk phase t' handler running entered := by
  obtain ⟨hthread, heq⟩ := Option.ite_none_right_eq_some.mp htest
  cases heq
  refine h.move _ (by simp [hthread]) (by simp [hthread]) (by simp [hthread, ThreadPc.count]) ?_
  cases hzero : t.period.isZero with
  | true => exact Or.inr (Or.inr (Or.inr ⟨rfl, fun _ => Or.inl rfl⟩))
  | false => exact Or.inr (Or.inl rfl)

theorem configure (h : TimerOk phase t handler running entered) {ok dropped : Bool}
    (hconfigure : t.configure ok dropped = some t') :
    TimerOk phase t' handler running entered := by
  obtain ⟨hthread, heq⟩ := Option.ite_none_right_eq_some.mp hconfigure
  have hlive : t.thread ≠ .absent := by simp [hthread]
  have hmove {thread : ThreadPc} := h.move thread hlive (by simp [hthread])
    (by simp [hthread, ThreadPc.count])
  split at heq
  case h_1 queue hqueue =>
    cases heq
    have hopen := h.queue hlive
    have hrange := h.queue_range queue hqueue
    have hbalance := h.balance
    have hmoved := hmove (Or.inr (Or.inr (Or.inl rfl)))
    simp only [TimerlibTimer.queued, hqueue, hthread, ThreadPc.count, Option.map_some,
      Option.getD_some] at hbalance
    refine ⟨hmoved.absent, hmoved.served, hmoved.storing, ?_, ?_,
      hmoved.thread_range, ?_, h.clearing,
      h.cleared, by simp⟩
    · simpa [hqueue] using hopen
    · rintro _ ⟨rfl⟩
      cases dropped with
      | true => exact ⟨le_rfl, intMax_nonneg⟩
      | false => exact hrange
    · intro hsome
      have := hbalance hsome
      cases dropped <;>
        simp only [TimerlibTimer.queued, ThreadPc.count, Option.map_some, Option.getD_some, if_true,
          if_false, Bool.false_eq_true] <;>
        omega
  case h_2 =>
    cases heq
    have hfailed : TimerOk phase { t with complained := true } handler running entered :=
      ⟨h.absent, h.served, h.storing, h.queue, h.queue_range, h.thread_range, h.balance, h.clearing,
        h.cleared, fun _ _ => Or.inr rfl⟩
    exact hfailed.move _ hlive (by simp [hthread]) (by simp [hthread, ThreadPc.count])
      (Or.inr (Or.inr (Or.inr ⟨rfl, fun _ => Or.inr rfl⟩)))

theorem notify (h : TimerOk phase t handler running entered) {first : Bool} {overrun : Int}
    (hthread : t.thread = .fired first overrun) (number : Nat) :
    TimerOk phase { t with thread := .storing first } (some ⟨number, true⟩) running
      (entered + (overrun + 1)) := by
  have hlive : t.thread ≠ .absent := by simp [hthread]
  have habsent := h.absent
  simp only [hthread, reduceCtorEq, false_iff] at habsent
  refine ⟨by simpa using habsent, by simp, by simp, fun _ => h.queue hlive, h.queue_range, by simp,
    ?_, h.clearing, h.cleared, by simp⟩
  intro _
  have hbalance := h.balance (h.served hlive)
  simp only [hthread, ThreadPc.count, TimerlibTimer.queued] at hbalance ⊢
  omega

theorem store (h : TimerOk phase t handler running entered) {first : Bool}
    (hthread : t.thread = .storing first) (number : Nat) :
    TimerOk phase { t with thread := if first then .testing else .waiting false }
      (some ⟨number, false⟩) running entered := by
  have hlive : t.thread ≠ .absent := by simp [hthread]
  have habsent := h.absent
  have hbalance := h.balance (h.served hlive)
  simp only [hthread, reduceCtorEq, false_iff] at habsent
  simp only [hthread, ThreadPc.count] at hbalance
  cases first <;>
    exact ⟨by simpa using habsent, by simp, by simp, fun _ => h.queue hlive, h.queue_range, by simp,
      fun _ => hbalance, h.clearing, h.cleared, by simp⟩

end TimerOk

section Steps

variable {b next : State} {order : List TimerId}

theorem phase_none (hnone : b.library = none) (timer : TimerId) : b.phase timer = none := by
  simp [State.phase, hnone]

/-- A step of one handler thread or of the kernel. -/
theorem Inv.change_one (h : Inv b) (timer : TimerId)
    (hstack : next.core.stack = b.core.stack) (hlibrary : next.library = b.library)
    (hflags : ∀ other, (next.core.timers other).isValid = (b.core.timers other).isValid ∧
      (next.core.timers other).isRunning = (b.core.timers other).isRunning)
    (hothers : ∀ other, other ≠ timer → next.timers other = b.timers other ∧
      next.core.handlers other = b.core.handlers other ∧
      handled other next.core.trace = handled other b.core.trace)
    (hself : TimerOk (b.phase timer) (next.timers timer) (next.core.handlers timer)
      (b.core.timers timer).isRunning (handled timer next.core.trace)) : Inv next := by
  have hphase (other : TimerId) : next.phase other = b.phase other := by
    simp only [State.phase, hlibrary]
  have hruns : next.core.runsPhp 0 = b.core.runsPhp 0 := by
    simp only [Timer.State.runsPhp, hstack]
  refine ⟨?_, ?_, ?_⟩
  · intro other
    rw [hphase, (hflags other).2]
    by_cases heq : other = timer
    · exact heq ▸ hself
    · obtain ⟨ht, hhandler, hhandled⟩ := hothers other heq
      rw [ht, hhandler, hhandled]
      exact h.timers other
  · intro other pc hcall
    rw [hruns, (hflags other).1, (hflags other).2, hstack]
    exact h.caller other pc (hlibrary ▸ hcall)
  · intro other hhead
    rw [(hflags other).2]
    exact h.destroying other (hstack ▸ hhead)

theorem Inv.set_timer (h : Inv b) (timer : TimerId) {t : TimerlibTimer}
    (hok : TimerOk (b.phase timer) t (b.core.handlers timer) (b.core.timers timer).isRunning
      (handled timer b.core.trace)) : Inv (b.setTimer timer t) := by
  refine h.change_one timer rfl rfl (fun _ => ⟨rfl, rfl⟩) ?_ ?_
  · intro other hne
    exact ⟨Function.update_of_ne hne .., rfl, rfl⟩
  · simpa [Layered.setTimer] using hok

theorem notify_inv (hcore : Timer.Inv b.core order) (h : Inv b) {timer : TimerId}
    (hstep : step b (.notify timer) = some next) : Inv next := by
  simp only [step] at hstep
  split at hstep
  case h_2 => cases hstep
  case h_1 first overrun hthread =>
    obtain ⟨mid, hmid, rfl⟩ := Option.map_eq_some_iff.mp hstep
    obtain ⟨core, hown, rfl⟩ := Option.map_eq_some_iff.mp hmid
    obtain ⟨hlink, -, -, hstack, htrace, number, -, hhandlers⟩ := step_handle hcore hown
    refine h.change_one timer hstack rfl ?_ ?_ ?_
    · exact fun other => ⟨(hlink.timers other).1, (hlink.timers other).2.1⟩
    · intro other hne
      refine ⟨Function.update_of_ne hne .., ?_, ?_⟩
      · change core.handlers other = _
        rw [hhandlers, Function.update_of_ne hne]
      · change handled other core.trace = _
        rw [htrace]
        simp [handled, Ne.symm hne]
    · have hhandler : core.handlers timer = some ⟨number, true⟩ := by simp [hhandlers]
      have hhandled : handled timer core.trace =
          handled timer b.core.trace + (overrun + 1) := by
        rw [htrace]
        simp [handled]
      simp only [Layered.setTimer, Function.update_self, hhandler, hhandled]
      exact (h.timers timer).notify hthread number

theorem store_inv (h : Inv b) {timer : TimerId}
    (hstep : step b (.store timer) = some next) : Inv next := by
  simp only [step] at hstep
  split at hstep
  case h_2 => cases hstep
  case h_1 first hthread =>
    obtain ⟨mid, hmid, rfl⟩ := Option.map_eq_some_iff.mp hstep
    obtain ⟨core, hown, rfl⟩ := Option.map_eq_some_iff.mp hmid
    cases Timer.step_moves hown with
    | @store _ number =>
        refine h.change_one timer rfl rfl (fun _ => ⟨rfl, rfl⟩) ?_ ?_
        · intro other hne
          exact ⟨Function.update_of_ne hne .., Function.update_of_ne hne .., rfl⟩
        · simpa [Layered.setTimer] using (h.timers timer).store hthread number

/-- A step of the PHP thread that neither the library nor a handler thread
notices. -/
theorem Inv.aside (h : Inv b) (hnone : b.library = none) {core : Timer.State}
    (haside : Aside b.core core) : Inv { b with core := core } := by
  refine ⟨?_, ?_, ?_⟩
  · intro timer
    have hok := h.timers timer
    simp only [State.phase, hnone] at hok ⊢
    rw [haside.handlers, haside.running, haside.handled]
    exact hok
  · intro timer pc hcall
    simp [hnone] at hcall
  · intro timer hhead
    exact absurd hhead (haside.after timer)

theorem init_inv (hcore : Timer.Inv b.core order) (h : Inv b) (hnone : b.library = none)
    {timer : TimerId} {mid : State} (hmid : b.coreStep (.php 0 (.init timer true)) = some mid) :
    Inv (mid.setTimer timer {}) := by
  obtain ⟨core, hown, rfl⟩ := Option.map_eq_some_iff.mp hmid
  obtain ⟨⟨hphp, hinvalid⟩, heq⟩ := Option.ite_none_right_eq_some.mp hown
  have hhead := head_of_callbacks (hcore.user_stack hphp)
  cases heq
  refine ⟨?_, ?_, ?_⟩
  · intro other
    have hok := h.timers other
    simp only [State.phase, Layered.setTimer, hnone] at hok ⊢
    by_cases heq : other = timer
    · subst heq
      constructor <;>
        simp [timerInit, Timer.State.record, handled, ThreadPc.count, TimerlibTimer.queued]
    · simpa [timerInit, Timer.State.record, handled, heq, Ne.symm heq] using hok
  · intro other pc hcall
    simp [Layered.setTimer, hnone] at hcall
  · intro other hdestroy
    exact absurd hdestroy (hhead other)

/-- `timerlib_timer_stop` is entered for a timer that runs. -/
theorem TimerOk.enter {t : TimerlibTimer} {handler : Option Handler} {entered : Int}
    (hok : TimerOk none t handler true entered) (running : Bool) :
    TimerOk (some .clearSec) t handler running entered := by
  have hlive : t.thread ≠ .absent := by simp [hok.absent]
  have hopen : t.queue ≠ none := by simp [hok.queue hlive]
  exact ⟨by simp [hlive], hok.served, hok.storing, fun _ => by simp [hopen], hok.queue_range,
    hok.thread_range, hok.balance, by simp, by simp, by simp⟩

theorem stop_inv (hcore : Timer.Inv b.core order) (h : Inv b) (hnone : b.library = none)
    {timer : TimerId} {ok : Bool} (hstep : phpStep b (.stop timer ok) = some next) : Inv next := by
  simp only [phpStep] at hstep
  split at hstep
  case isTrue hcalled =>
    obtain ⟨hphp, hvalid, hrunning⟩ := hcalled
    cases hstep
    refine ⟨?_, ?_, h.destroying⟩
    · intro other
      have hok := h.timers other
      rw [phase_none hnone] at hok
      by_cases heq : other = timer
      · subst heq
        rw [hrunning] at hok
        simpa [State.phase, hrunning] using hok.enter true
      · simpa [State.phase, Ne.symm heq] using hok
    · rintro other pc ⟨rfl⟩
      exact Or.inl ⟨hphp, hvalid, hrunning⟩
  case isFalse hcalled =>
    obtain ⟨rfl, hphp, hhead⟩ := Layered.call_outside hcore rfl hstep
    unfold timerStop
    split
    · exact h.aside hnone ⟨rfl, fun _ => rfl, fun _ => rfl, hhead, hhead⟩
    case isFalse hvalid =>
      rw [if_neg (fun hrunning => hcalled ⟨hphp, by simpa using hvalid, hrunning⟩)]
      exact h.aside hnone ⟨rfl, fun _ => rfl, fun _ => rfl, hhead, hhead⟩

theorem destroy_inv (hcore : Timer.Inv b.core order) (h : Inv b) (hnone : b.library = none)
    {timer : TimerId} (hstep : phpStep b (.destroy timer) = some next) : Inv next := by
  obtain ⟨mid, hmid, rfl⟩ := Option.map_eq_some_iff.mp hstep
  obtain ⟨rfl, hphp, hhead⟩ := Layered.call_outside hcore rfl hmid
  unfold timerDestroy
  cases hvalid : (b.core.timers timer).isValid with
  | false =>
      simp only [if_true]
      split
      · next other rest hstack =>
          have hdestroy : (b.core.stack 0).head? = some (.destroy other .timerlib) :=
            congrArg List.head? hstack
          exact absurd hdestroy (hhead other)
      · exact h.aside hnone ⟨rfl, fun _ => rfl, fun _ => rfl, hhead, hhead⟩
  | true =>
      have htls : Build.nonZts.tls (.php 0) = .php 0 := rfl
      simp only [htls, (hcore.owner timer hvalid).1, ne_eq, not_true_eq_false, if_false,
        Bool.true_eq_false, Timer.State.setStack, Function.update_self]
      have hold (other : TimerId) := h.timers other
      simp only [phase_none hnone] at hold
      have hcleared : ((b.core.setRunning timer false).timers timer).isRunning = false := by
        simp [Timer.State.setRunning, Timer.State.setTimer]
      have hothers (other : TimerId) (hne : other ≠ timer) :
          (b.core.setRunning timer false).timers other = b.core.timers other :=
        Function.update_of_ne hne ..
      have hown (other : TimerId) (hdestroy : (some (Frame.destroy timer .timerlib)) =
          some (Frame.destroy other .timerlib)) :
          ((b.core.setRunning timer false).timers other).isRunning = false := by
        cases hdestroy
        exact hcleared
      cases hrunning : (b.core.timers timer).isRunning with
      | true =>
          simp only [if_true]
          refine ⟨?_, ?_, fun other hdestroy => hown other hdestroy⟩
          · intro other
            change TimerOk (State.phase { b with library := some (timer, .clearSec) } other)
              (b.timers other) (b.core.handlers other)
              ((b.core.setRunning timer false).timers other).isRunning (handled other b.core.trace)
            have hok := hold other
            by_cases heq : other = timer
            · subst heq
              rw [hrunning] at hok
              simpa [State.phase, hcleared] using hok.enter false
            · simpa [State.phase, Ne.symm heq, hothers other heq] using hok
          · rintro other pc ⟨rfl⟩
            exact Or.inr rfl
      | false =>
          simp only [Bool.false_eq_true, if_false]
          refine ⟨?_, ?_, fun other hdestroy => hown other hdestroy⟩
          · intro other
            change TimerOk (b.phase other) (b.timers other) (b.core.handlers other)
              ((b.core.setRunning timer false).timers other).isRunning (handled other b.core.trace)
            have hok := hold other
            rw [phase_none hnone]
            by_cases heq : other = timer
            · subst heq
              rw [hcleared, ← hrunning]
              exact hok
            · rw [hothers other heq]
              exact hok
          · intro other pc hcall
            simp [hnone] at hcall

/-- The handler thread of `excimer_timer.c` ends when `timerlib_timer_destroy`
returns. By then the thread of the library is gone. -/
theorem destroyNext_inv (hcore : Timer.Inv b.core order) (h : Inv b) (hnone : b.library = none)
    (hstep : b.coreStep (.php 0 .destroyNext) = some next) : Inv next := by
  obtain ⟨core, hown, rfl⟩ := Option.map_eq_some_iff.mp hstep
  have hphp : Timer.phpStep .nonZts 0 b.core .destroyNext = some core := hown
  by_cases hinside : ∃ timer, (b.core.stack 0).head? = some (.destroy timer .timerlib)
  swap
  · exact h.aside hnone (destroyNext_aside hcore (by simpa using hinside) hphp)
  · obtain ⟨timer, hhead⟩ := hinside
    have hrunning := h.destroying timer hhead
    cases Timer.phpStep_moves hphp with
    | @join other rest hstack hidle =>
        rw [hstack] at hhead
        cases hhead
        refine ⟨?_, ?_, ?_⟩
        · intro other
          change TimerOk (b.phase other) (b.timers other)
            (Function.update b.core.handlers timer none other) (b.core.timers other).isRunning
            (handled other b.core.trace)
          have hok := h.timers other
          rw [phase_none hnone] at hok ⊢
          by_cases heq : other = timer
          · subst heq
            have habsent := hok.absent.mpr ⟨hrunning, rfl⟩
            refine ⟨hok.absent, ?_, ?_, ?_, hok.queue_range, hok.thread_range, ?_, hok.clearing,
              hok.cleared, hok.exited⟩ <;>
              simp [habsent]
          · rw [Function.update_of_ne heq]
            exact hok
        · intro other pc hcall
          simp [hnone] at hcall
        · intro other hdestroy
          simp [Timer.State.setStack] at hdestroy
    | @lock other rest hstack => simp [hstack] at hhead
    | @remove other rest links hstack => simp [hstack] at hhead
    | @unlock other rest hstack => simp [hstack] at hhead
    | @finish other rest hstack => simp [hstack] at hhead

theorem php_inv (hcore : Timer.Inv b.core order) (h : Inv b) (hnone : b.library = none)
    (move : Move) (hstep : phpStep b move = some next) : Inv next := by
  have hloop (hmove : move = .interrupt ∨ move = .dequeue ∨ move = .call ∨ move = .ret)
      (hown : b.coreStep (.php 0 move) = some next) : Inv next := by
    obtain ⟨core, hphp, rfl⟩ := Option.map_eq_some_iff.mp hown
    exact h.aside hnone (loop_aside hcore hmove hphp)
  cases move with
  | init timer ok =>
      obtain ⟨-, hstep⟩ := Option.ite_none_right_eq_some.mp hstep
      obtain ⟨mid, hmid, rfl⟩ := Option.map_eq_some_iff.mp hstep
      exact init_inv hcore h hnone hmid
  | start timer period initial ok => cases hstep
  | stop timer ok => exact stop_inv hcore h hnone hstep
  | destroy timer => exact destroy_inv hcore h hnone hstep
  | destroyNext => exact destroyNext_inv hcore h hnone hstep
  | interrupt => exact hloop (Or.inl rfl) hstep
  | dequeue => exact hloop (Or.inr (Or.inl rfl)) hstep
  | call => exact hloop (Or.inr (Or.inr (Or.inl rfl))) hstep
  | ret => exact hloop (Or.inr (Or.inr (Or.inr rfl))) hstep

/-- A timer without a thread whose queue is replaced or stays. -/
theorem TimerOk.requeue {t : TimerlibTimer} {handler : Option Handler} {entered : Int}
    (hok : TimerOk none t handler false entered) (period : Timespec) (armed : Option Bool) :
    TimerOk none { t with period := period } handler false entered ∧
    TimerOk none { t with
      period := period, queue := some { armed := armed }
      discarded := t.discarded + t.queued } handler false entered := by
  have habsent := hok.absent.mpr ⟨rfl, rfl⟩
  have hbalance := hok.balance
  constructor
  · exact ⟨hok.absent, hok.served, hok.storing, hok.queue, hok.queue_range, hok.thread_range,
      hbalance, by simp, by simp, by simp [habsent]⟩
  · refine ⟨hok.absent, hok.served, hok.storing, fun hlive => absurd habsent hlive, ?_,
      hok.thread_range, ?_, by simp, by simp, by simp [habsent]⟩
    · rintro _ ⟨rfl⟩
      exact ⟨le_rfl, intMax_nonneg⟩
    · intro hhandler
      have := hbalance hhandler
      simp only [TimerlibTimer.queued, Option.map_some, Option.getD_some] at this ⊢
      omega

/-- `timerlib_timer_start` on a timer without a thread. -/
theorem TimerOk.start {t : TimerlibTimer} {handler : Option Handler} {entered : Int}
    (hok : TimerOk none t handler false entered) (hhandler : handler ≠ none)
    (period initial : Timespec) (outcomes : Outcomes) :
    TimerOk none (t.start period initial outcomes).1 handler
      (t.start period initial outcomes).2 entered := by
  unfold TimerlibTimer.start
  dsimp only
  split
  swap
  · exact (hok.requeue period none).1
  split
  swap
  · exact (hok.requeue period none).2
  split
  swap
  · exact (hok.requeue period _).2
  · have hready := (hok.requeue period (some !initial.isZero)).2
    have habsent : t.thread = .absent := hok.absent.mpr ⟨rfl, rfl⟩
    have hstoring := hready.storing
    have hbalance := hready.balance
    simp only [habsent, reduceCtorEq, exists_false, false_iff] at hstoring
    simp only [habsent, ThreadPc.count] at hbalance
    exact ⟨by simp, fun _ => hhandler, by simpa using hstoring, by simp,
      hready.queue_range, by simp,
      hbalance, by simp, by simp, by simp⟩

/-- The PHP thread has returned from the library, and `is_running` says so. -/
theorem inv_of_answer {timer : TimerId} {t : TimerlibTimer} {running : Bool} {event : Event}
    (hhead : ∀ other, (b.core.stack 0).head? ≠ some (.destroy other .timerlib))
    (hsilent : ∀ other, handled other (event :: b.core.trace) = handled other b.core.trace)
    (hothers : ∀ other, other ≠ timer → TimerOk none (b.timers other) (b.core.handlers other)
      (b.core.timers other).isRunning (handled other b.core.trace))
    (hself : TimerOk none t (b.core.handlers timer) running (handled timer b.core.trace)) :
    Inv ⟨(b.core.setRunning timer running).record event,
      Function.update b.timers timer t, none⟩ := by
  refine ⟨?_, by simp, fun other hdestroy => absurd hdestroy (hhead other)⟩
  intro other
  change TimerOk none (Function.update b.timers timer t other) (b.core.handlers other)
    ((b.core.setRunning timer running).timers other).isRunning
    (handled other (event :: b.core.trace))
  rw [hsilent]
  by_cases heq : other = timer
  · subst heq
    simpa [Timer.State.setRunning, Timer.State.setTimer] using hself
  · simpa [Timer.State.setRunning, Timer.State.setTimer, heq] using hothers other heq

theorem start_inv (hcore : Timer.Inv b.core order) (h : Inv b) {timer : TimerId}
    {period initial : Timespec} {outcomes : Outcomes}
    (hstep : step b (.start timer period initial outcomes) = some next) : Inv next := by
  obtain ⟨⟨hnone, hidle⟩, hstep⟩ := Option.ite_none_right_eq_some.mp hstep
  obtain ⟨mid, hmid, rfl⟩ := Option.map_eq_some_iff.mp hstep
  obtain ⟨rfl, hphp, hhead⟩ := Layered.call_outside hcore rfl hmid
  unfold timerStart
  cases hvalid : (b.core.timers timer).isValid with
  | false => exact h.aside hnone ⟨rfl, fun _ => rfl, fun _ => rfl, hhead, hhead⟩
  | true =>
      cases hzero : (effectiveInitial period initial).isZero with
      | true => exact h.aside hnone ⟨rfl, fun _ => rfl, fun _ => rfl, hhead, hhead⟩
      | false =>
          simp only [Bool.true_eq_false, Bool.false_eq_true, if_false, Bool.not_false,
            Bool.and_self, if_true]
          have hserved : (b.core.handlers timer).isSome :=
            (hcore.served timer).mpr ⟨hvalid, fun pc hpc => absurd hpc
              ((quiet_of_callbacks (hcore.user_stack hphp)).not_destroy timer pc)⟩
          have hself := h.timers timer
          rw [phase_none hnone, hidle] at hself
          have hstarted := hself.start (Option.isSome_iff_ne_none.mp hserved) period
            (effectiveInitial period initial) outcomes
          set result := (b.timers timer).start period (effectiveInitial period initial) outcomes
          cases hresult : result.2 with
          | true =>
              rw [hresult] at hstarted
              have hinv : Inv ⟨(b.core.setRunning timer true).record (.start timer),
                  Function.update b.timers timer result.1, none⟩ :=
                inv_of_answer hhead (fun _ => rfl)
                  (fun other _ => phase_none hnone other ▸ h.timers other) hstarted
              simpa [Layered.setTimer, hnone] using hinv
          | false =>
              rw [hresult] at hstarted
              refine h.set_timer timer ?_
              rw [phase_none hnone, hidle]
              exact hstarted

/-- The PHP thread takes a step in the library for one timer. -/
theorem Inv.inside (h : Inv b) {timer : TimerId} {pc later : StopPc}
    (hlibrary : b.library = some (timer, pc)) {t : TimerlibTimer}
    (hself : TimerOk (some later) t (b.core.handlers timer) (b.core.timers timer).isRunning
      (handled timer b.core.trace)) :
    Inv { b.setTimer timer t with library := some (timer, later) } := by
  refine ⟨?_, ?_, h.destroying⟩
  · intro other
    have hok := h.timers other
    by_cases heq : other = timer
    · subst heq
      simpa [State.phase, Layered.setTimer] using hself
    · simpa [State.phase, Layered.setTimer, hlibrary, heq, Ne.symm heq] using hok
  · rintro other _ ⟨rfl⟩
    exact h.caller timer pc hlibrary

theorem library_inv (h : Inv b) (hstep : step b .library = some next) : Inv next := by
  obtain ⟨⟨timer, pc⟩, hlibrary, hstep⟩ := Option.bind_eq_some_iff.mp hstep
  have hself := h.timers timer
  have hphase : b.phase timer = some pc := by simp [State.phase, hlibrary]
  rw [hphase] at hself
  cases pc with
  | clearSec =>
      cases hstep
      refine h.inside hlibrary ⟨?_, hself.served, hself.storing, ?_, hself.queue_range,
        hself.thread_range, hself.balance, fun _ => rfl, by simp, by simp⟩
      · simpa using hself.absent
      · simpa using hself.queue
  | clearNsec =>
      cases hstep
      refine h.inside hlibrary ⟨?_, hself.served, hself.storing, ?_, hself.queue_range,
        hself.thread_range, hself.balance, by simp, ?_, by simp⟩
      · simpa using hself.absent
      · simpa using hself.queue
      · simp [Timespec.isZero, hself.clearing rfl]
  | close =>
      cases hstep
      have hcleared := hself.cleared (Or.inl rfl)
      refine h.inside hlibrary ⟨?_, hself.served, hself.storing, ?_, by simp [TimerlibTimer.close],
        hself.thread_range, ?_, by simp, fun _ => hcleared, by simp⟩
      · simpa [TimerlibTimer.close] using hself.absent
      · simp [TimerlibTimer.close]
      · intro hhandler
        have := hself.balance hhandler
        simp only [TimerlibTimer.close, TimerlibTimer.queued,
          Option.map_none, Option.getD_none] at this ⊢
        omega
  | join =>
      obtain ⟨hexited, hstep⟩ := Option.ite_none_right_eq_some.mp hstep
      have hlive : (b.timers timer).thread ≠ .absent := by simp [hexited]
      have hothers (other : TimerId) (hne : other ≠ timer) : TimerOk none (b.timers other)
          (b.core.handlers other) (b.core.timers other).isRunning (handled other b.core.trace) := by
        have hok := h.timers other
        simpa [State.phase, hlibrary, Ne.symm hne] using hok
      have hjoined : TimerOk none { b.timers timer with thread := .absent } (b.core.handlers timer)
          false (handled timer b.core.trace) := by
        have hstoring := hself.storing
        have hbalance := hself.balance
        simp only [hexited, reduceCtorEq, exists_false, false_iff] at hstoring
        simp only [hexited, ThreadPc.count] at hbalance
        exact ⟨by simp, by simp, by simpa using hstoring, by simp, hself.queue_range, by simp,
          hbalance, by simp, by simp, by simp⟩
      have hcaller := h.caller timer _ hlibrary
      dsimp only at hstep
      split at hstep
      case h_1 other own rest hstack =>
        cases hstep
        have hhead : (b.core.stack 0).head? = some (.destroy timer .timerlib) := by
          rcases hcaller with ⟨hphp, -⟩ | hhead
          · simp [Timer.State.runsPhp, hstack] at hphp
          · exact hhead
        refine ⟨?_, by simp, h.destroying⟩
        intro other
        change TimerOk none (Function.update b.timers timer _ other) (b.core.handlers other)
          (b.core.timers other).isRunning (handled other b.core.trace)
        by_cases heq : other = timer
        · subst heq
          rw [Function.update_self, h.destroying other hhead]
          exact hjoined
        · rw [Function.update_of_ne heq]
          exact hothers other heq
      case h_2 hstack =>
        have houtside : ∀ other, (b.core.stack 0).head? ≠ some (.destroy other .timerlib) := by
          intro other hhead
          obtain ⟨rest, hrest⟩ := List.head?_eq_some_iff.mp hhead
          exact hstack other _ rest hrest
        obtain ⟨hphp, hvalid, hrunning⟩ := hcaller.resolve_right (houtside timer)
        obtain ⟨core, hown, rfl⟩ := Option.map_eq_some_iff.mp hstep
        have hstop : core = (b.core.setRunning timer false).record (.stop timer) := by
          obtain ⟨-, heq⟩ := Option.ite_none_right_eq_some.mp (step_php hown).2
          rw [← Option.some.inj heq]
          simp [timerStop, Layered.setTimer, hvalid, hrunning]
        rw [hstop]
        exact inv_of_answer houtside (fun _ => rfl) hothers hjoined

theorem step_inv (hcore : Timer.Inv b.core order) (h : Inv b) (action : Action)
    (hstep : step b action = some next) : Inv next := by
  cases action with
  | expire timer =>
      obtain ⟨t, hexpire, rfl⟩ := Option.map_eq_some_iff.mp hstep
      exact h.set_timer timer ((h.timers timer).expire hexpire)
  | wake timer interrupted =>
      obtain ⟨t, hwake, rfl⟩ := Option.map_eq_some_iff.mp hstep
      exact h.set_timer timer ((h.timers timer).wake hwake)
  | notify timer => exact notify_inv hcore h hstep
  | store timer => exact store_inv h hstep
  | test timer =>
      obtain ⟨t, htest, rfl⟩ := Option.map_eq_some_iff.mp hstep
      exact h.set_timer timer ((h.timers timer).test htest)
  | configure timer ok dropped =>
      obtain ⟨t, hconfigure, rfl⟩ := Option.map_eq_some_iff.mp hstep
      exact h.set_timer timer ((h.timers timer).configure hconfigure)
  | raise =>
      cases hstep
      exact ⟨h.timers, h.caller, h.destroying⟩
  | start timer period initial outcomes => exact start_inv hcore h hstep
  | php move =>
      obtain ⟨hnone, hstep⟩ := Option.ite_none_right_eq_some.mp hstep
      exact php_inv hcore h hnone move hstep
  | library => exact library_inv h hstep

end Steps

theorem reachable_inv {b : State} (hreach : Reachable b) : Inv b := by
  refine Transition.Reachable.invariant_with (fun b => ∃ order, Timer.Inv b.core order) Inv
    (fun b hb => Timer.reachable_inv (core_reachable hb)) ?_ ?_ hreach
  · rintro _ rfl
    exact initial_inv
  · rintro b action next ⟨order, hcore⟩ h hstep
    exact step_inv hcore h action hstep

section Join

/-- A step of the handler thread of a timer. -/
def Action.ofHandler (timer : TimerId) : Action → Bool
  | .wake other _ | .notify other | .store other | .test other | .configure other _ _ =>
      other == timer
  | _ => false

/-- The steps that the handler thread takes at most once its queue is closed. -/
def ThreadPc.rank : ThreadPc → Nat
  | .absent | .exited => 0
  | .waiting _ | .testing | .configuring => 1
  | .storing _ => 2
  | .fired _ _ => 3

variable {b next : State} {timer : TimerId}

theorem rank_le (thread : ThreadPc) : thread.rank ≤ 3 := by
  cases thread <;> simp [ThreadPc.rank]

/-- Only the handler thread and the kernel move while the PHP thread waits. -/
theorem rank_step (h : Inv b) (hjoin : b.library = some (timer, .join))
    {action : Action} (hstay : action ≠ .library) (hstep : step b action = some next) :
    next.library = some (timer, .join) ∧
      (next.timers timer).thread.rank + (if action.ofHandler timer then 1 else 0) ≤
        (b.timers timer).thread.rank := by
  have hok := h.timers timer
  have hphase : b.phase timer = some .join := by simp [State.phase, hjoin]
  have hlive : (b.timers timer).thread ≠ .absent := by simp [hok.absent, hphase]
  have hclosed : (b.timers timer).queue = none := (hok.queue hlive).mpr hphase
  have hcleared := hok.cleared (Or.inr hphase)
  -- a step for one timer leaves the library alone and the other timers as they are
  have hset {other : TimerId} {t : TimerlibTimer} {core : Timer.State}
      (hself : other = timer → t.thread.rank + 1 ≤ (b.timers timer).thread.rank) :
      ({ b.setTimer other t with core := core }).library = some (timer, .join) ∧
        (({ b.setTimer other t with core := core }).timers timer).thread.rank +
          (if other == timer then 1 else 0) ≤ (b.timers timer).thread.rank := by
    refine ⟨hjoin, ?_⟩
    by_cases heq : other = timer
    · subst heq
      simpa [Layered.setTimer] using hself rfl
    · simp [Layered.setTimer, Function.update_of_ne (Ne.symm heq), heq]
  cases action with
  | expire other =>
      obtain ⟨t, hexpire, rfl⟩ := Option.map_eq_some_iff.mp hstep
      refine ⟨hjoin, ?_⟩
      by_cases heq : other = timer
      · subst heq
        simp [TimerlibTimer.expire, hclosed] at hexpire
      · simp [Layered.setTimer, Function.update_of_ne (Ne.symm heq), Action.ofHandler]
  | wake other interrupted =>
      obtain ⟨t, hwake, rfl⟩ := Option.map_eq_some_iff.mp hstep
      refine hset ?_
      rintro rfl
      unfold TimerlibTimer.wake at hwake
      split at hwake
      case h_1 first hthread =>
        rw [hclosed] at hwake
        cases hwake
        simp [hthread, ThreadPc.rank]
      case h_2 => cases hwake
  | notify other =>
      simp only [step] at hstep
      split at hstep
      case h_1 first overrun hthread =>
        obtain ⟨mid, hmid, rfl⟩ := Option.map_eq_some_iff.mp hstep
        obtain ⟨core, -, rfl⟩ := Option.map_eq_some_iff.mp hmid
        refine hset ?_
        rintro rfl
        simp [hthread, ThreadPc.rank]
      case h_2 => cases hstep
  | store other =>
      simp only [step] at hstep
      split at hstep
      case h_1 first hthread =>
        obtain ⟨mid, hmid, rfl⟩ := Option.map_eq_some_iff.mp hstep
        obtain ⟨core, -, rfl⟩ := Option.map_eq_some_iff.mp hmid
        refine hset ?_
        rintro rfl
        cases first <;> simp [hthread, ThreadPc.rank]
      case h_2 => cases hstep
  | test other =>
      obtain ⟨t, htest, rfl⟩ := Option.map_eq_some_iff.mp hstep
      refine hset ?_
      rintro rfl
      obtain ⟨hthread, ht⟩ := Option.ite_none_right_eq_some.mp htest
      cases ht
      simp [hthread, hcleared, ThreadPc.rank]
  | configure other ok dropped =>
      obtain ⟨t, hconfigure, rfl⟩ := Option.map_eq_some_iff.mp hstep
      refine hset ?_
      rintro rfl
      obtain ⟨hthread, ht⟩ := Option.ite_none_right_eq_some.mp hconfigure
      rw [hclosed] at ht
      cases ht
      simp [hthread, ThreadPc.rank]
  | raise =>
      cases hstep
      exact ⟨hjoin, by simp [Action.ofHandler]⟩
  | start other period initial outcomes => simp [step, hjoin] at hstep
  | php move => simp [step, hjoin] at hstep
  | library => exact absurd rfl hstay

/-- Neither the mutex nor the kernel holds the handler thread up. -/
theorem handler_enabled (hreach : Reachable b) (hjoin : b.library = some (timer, .join))
    (halive : (b.timers timer).thread ≠ .exited) :
    ∃ action, action.ofHandler timer = true ∧ (step b action).isSome = true := by
  have h := reachable_inv hreach
  have hok := h.timers timer
  have hcoreReach := core_reachable hreach
  obtain ⟨order, hcore⟩ := Timer.reachable_inv hcoreReach
  have hphase : b.phase timer = some .join := by simp [State.phase, hjoin]
  have hlive : (b.timers timer).thread ≠ .absent := by simp [hok.absent, hphase]
  have hclosed : (b.timers timer).queue = none := (hok.queue hlive).mpr hphase
  have hcaller := h.caller timer _ hjoin
  have hvalid : (b.core.timers timer).isValid = true := by
    rcases hcaller with ⟨-, hvalid, -⟩ | hhead
    · exact hvalid
    · exact hcore.destroying timer _ hhead
  have hfree : (b.core.tls (.php 0)).mutex = none := by
    rw [hcore.mutex]
    rcases hcaller with ⟨hphp, -⟩ | hhead
    · exact (quiet_of_callbacks (hcore.user_stack hphp)).holder_eq
    · obtain ⟨rest, hstack⟩ := List.head?_eq_some_iff.mp hhead
      rw [hstack]
      rfl
  obtain ⟨handler, hhandler⟩ := Option.ne_none_iff_exists'.mp (hok.served hlive)
  cases hthread : (b.timers timer).thread with
  | absent => exact absurd hthread hlive
  | waiting first =>
      exact ⟨.wake timer false, by simp [Action.ofHandler],
        by simp [step, TimerlibTimer.wake, hthread, hclosed]⟩
  | fired first overrun =>
      obtain ⟨number, storing⟩ := handler
      have hidle : storing = false := by
        cases storing with
        | false => rfl
        | true =>
            obtain ⟨first, hstoring⟩ := hok.storing.mpr ⟨number, hhandler⟩
            rw [hthread] at hstoring
            cases hstoring
      subst hidle
      obtain ⟨hlow, hhigh⟩ := hok.thread_range first overrun hthread
      obtain ⟨core, hown⟩ := handle_enabled hcoreReach hhandler hfree hlow hhigh
      exact ⟨.notify timer, by simp [Action.ofHandler],
        by simp [step, hthread, Layered.coreStep_of_step hown]⟩
  | storing first =>
      obtain ⟨number, hstoring⟩ := hok.storing.mp ⟨first, hthread⟩
      have hptr := (hcore.owner timer hvalid).2
      obtain ⟨core, hown⟩ : ∃ core, Timer.step .nonZts b.core (.store timer) = some core := by
        simp only [Timer.step, hstoring, hptr]
        exact ⟨_, rfl⟩
      exact ⟨.store timer, by simp [Action.ofHandler],
        by simp [step, hthread, Layered.coreStep_of_step hown]⟩
  | testing =>
      exact ⟨.test timer, by simp [Action.ofHandler], by simp [step, TimerlibTimer.test, hthread]⟩
  | configuring =>
      exact ⟨.configure timer true false, by simp [Action.ofHandler],
        by simp [step, TimerlibTimer.configure, hthread, hclosed]⟩
  | exited => exact absurd hthread halive

theorem join_returns (hreach : Reachable b) (hjoin : b.library = some (timer, .join))
    (hexited : (b.timers timer).thread = .exited) : (step b .library).isSome = true := by
  simp only [step, hjoin, Option.bind_some, libraryStep, hexited, if_true]
  split
  case h_1 => rfl
  case h_2 hstack =>
    have hphp : b.core.runsPhp 0 = true := by
      rcases (reachable_inv hreach).caller timer _ hjoin with ⟨hphp, -⟩ | hhead
      · exact hphp
      · obtain ⟨rest, hrest⟩ := List.head?_eq_some_iff.mp hhead
        exact absurd hrest (hstack timer _ rest)
    have hown : Timer.step .nonZts b.core (.php 0 (.stop timer true)) =
        some (timerStop b.core timer true) := by
      simp [Timer.step, Timer.phpStep, Build.nonZts, hphp]
    simp [Layered.coreStep, Layered.setTimer, hown]

end Join

/-- The PHP thread does not wait for ever in `timerlib_timer_stop`. Whatever else
happens while it waits, the handler thread takes at most three steps, one of which
is always possible until it has exited, and then the PHP thread goes on. -/
theorem stop_returns {b later : State} (hreach : Reachable b) {timer : TimerId}
    (hjoin : b.library = some (timer, .join)) {actions : List Action}
    (hrun : Transition.run step b actions = some later) (hstay : .library ∉ actions) :
    later.library = some (timer, .join) ∧
      (actions.filter (Action.ofHandler timer)).length ≤ 3 ∧
      ((later.timers timer).thread ≠ .exited →
        ∃ action, action.ofHandler timer = true ∧ (step later action).isSome = true) ∧
      ((later.timers timer).thread = .exited → (step later .library).isSome = true) := by
  have hbounded := Transition.run_bounded (· ≠ .library)
    (fun b => Reachable b ∧ b.library = some (timer, .join))
    (fun b => (b.timers timer).thread.rank) (Action.ofHandler timer) ?_
    (fun action hmem heq => hstay (heq ▸ hmem)) ⟨hreach, hjoin⟩ hrun
  · obtain ⟨⟨hlater, hwaits⟩, hbound⟩ := hbounded
    refine ⟨hwaits, ?_, handler_enabled hlater hwaits, join_returns hlater hwaits⟩
    have := rank_le (b.timers timer).thread
    omega
  · rintro b action next hne ⟨hreach, hjoin⟩ hstep
    obtain ⟨hwaits, hdrop⟩ := rank_step (reachable_inv hreach) hjoin hne hstep
    exact ⟨⟨hreach.step_from hstep, hwaits⟩, hdrop⟩

/-- The queue is closed while the handler thread is about to report an
expiration. -/
def closesBeforeReport : List Action :=
  [.php (.init 5 true), .start 5 ⟨0, 1000⟩ ⟨0, 0⟩ ⟨true, true, true⟩, .expire 5, .wake 5 false,
    .php (.stop 5 true), .library, .library, .library]

theorem stop_returns_closesBeforeReport :
    ∃ b later, Transition.run step State.initial closesBeforeReport = some b ∧
      Transition.run step b [.notify 5, .raise, .store 5, .test 5] = some later ∧
      later.library = some (5, .join) ∧ (step later .library).isSome = true := by
  obtain ⟨b, hrun, hcheck⟩ := Transition.run_check step State.initial closesBeforeReport
    (fun b => b.library == some (5, .join) &&
      (Transition.run step b [.notify 5, .raise, .store 5, .test 5]).any fun later =>
        (later.timers 5).thread == .exited) (by decide)
  simp only [Bool.and_eq_true, beq_iff_eq] at hcheck
  obtain ⟨later, hlater, hexited⟩ := Transition.run_check step b _ _ hcheck.2
  obtain ⟨hwaits, -, -, hreturns⟩ := stop_returns ⟨State.initial, _, rfl, hrun⟩ hcheck.1 hlater
    (by simp)
  exact ⟨b, later, hrun, hlater, hwaits, hreturns (beq_iff_eq.mp hexited)⟩

end Excimer.Timer.KqueueThreads
