import Excimer.Timer.Delivery

/-!
A timer library under the timers of the build without thread safety. A state
adds to the state of `excimer_timer.c` what the library keeps for every
`timerlib_timer_t`, and where the PHP thread stands in a call of the library
that takes several steps.

The loop over the pending timers and what `excimer_timer_destroy` does after
`timerlib_timer_destroy` go past the library: it notices nothing of them.
-/

namespace Excimer.Timer

structure Layered (T L : Type) where
  core : State
  timers : TimerId → T
  library : Option L

namespace Layered

variable {T L : Type}

def setTimer (b : Layered T L) (timer : TimerId) (t : T) : Layered T L :=
  { b with timers := Function.update b.timers timer t }

/-- A step of `excimer_timer.c` that leaves the library alone. -/
def coreStep (b : Layered T L) (action : Action) : Option (Layered T L) :=
  (step .nonZts b.core action).map fun core => { b with core := core }

end Layered

/-- An overrun that `excimer_timer_handle` takes without overflow. -/
def InRange (overrun : Int) : Prop := 0 ≤ overrun ∧ overrun + 1 ≤ intMax

/-- What the library does not notice of a step of the PHP thread. -/
structure Aside (s next : State) : Prop where
  handlers : next.handlers = s.handlers
  running : ∀ timer, (next.timers timer).isRunning = (s.timers timer).isRunning
  handled : ∀ timer, Timer.handled timer next.trace = Timer.handled timer s.trace
  before : ∀ timer, (s.stack 0).head? ≠ some (.destroy timer .timerlib)
  after : ∀ timer, (next.stack 0).head? ≠ some (.destroy timer .timerlib)

section Outside

variable {order : List TimerId}

theorem head_of_callbacks {frames : List Frame}
    (h : ∀ frame ∈ frames, ∃ timer, frame = .callback timer) (timer : TimerId) :
    frames.head? ≠ some (.destroy timer .timerlib) :=
  (quiet_of_callbacks h).not_destroy timer _

theorem loop_aside {s core : State} (hcore : Inv s order) {move : Move}
    (hmove : move = .interrupt ∨ move = .dequeue ∨ move = .call ∨ move = .ret)
    (hstep : phpStep .nonZts 0 s move = some core) : Aside s core := by
  rcases hmove with rfl | rfl | rfl | rfl
  · cases phpStep_moves hstep with
    | interrupt hphp =>
        have hhead := head_of_callbacks (hcore.user_stack hphp)
        exact ⟨rfl, fun _ => rfl, fun _ => rfl, hhead, by simp [State.setStack]⟩
  · obtain ⟨rest, hstack, ⟨_, rfl⟩ | ⟨timer, _, _, hlink, _, hstack', hhandlers, htrace⟩⟩ :=
      step_dequeue hcore hstep
    · have hbelow := hcore.below
      rw [hstack] at hbelow
      refine ⟨rfl, fun _ => rfl, fun _ => rfl, by simp [hstack], ?_⟩
      simpa [State.setStack] using head_of_callbacks hbelow
    · exact ⟨hhandlers, fun other => (hlink.timers other).2.1, fun _ => by rw [htrace],
        by simp [hstack], by simp [hstack']⟩
  · cases phpStep_moves hstep with
    | call hstack =>
        exact ⟨rfl, fun _ => rfl, fun _ => rfl, by simp [hstack],
          by simp [State.setStack, State.record]⟩
  · cases phpStep_moves hstep with
    | ret hstack =>
        exact ⟨rfl, fun _ => rfl, fun _ => rfl, by simp [hstack],
          by simp [State.setStack]⟩

/-- `excimer_timer_destroy` after it has left the library. -/
theorem destroyNext_aside {s core : State} (hcore : Inv s order)
    (hbefore : ∀ timer, (s.stack 0).head? ≠ some (.destroy timer .timerlib))
    (hstep : phpStep .nonZts 0 s .destroyNext = some core) : Aside s core := by
  cases phpStep_moves hstep with
  | @join timer _ hstack => exact absurd (by rw [hstack]; rfl) (hbefore timer)
  | lock => exact ⟨rfl, fun _ => rfl, fun _ => rfl, hbefore, by simp [State.setStack]⟩
  | remove => exact ⟨rfl, fun _ => rfl, fun _ => rfl, hbefore, by simp [State.setStack]⟩
  | unlock => exact ⟨rfl, fun _ => rfl, fun _ => rfl, hbefore, by simp [State.setStack]⟩
  | @finish timer _ hstack =>
      have hbelow := hcore.below
      rw [hstack] at hbelow
      refine ⟨rfl, ?_, fun _ => rfl, hbefore, ?_⟩
      · intro other
        by_cases heq : other = timer <;>
          simp [State.setTimer, State.setStack, State.record, heq]
      · simpa [State.setStack, State.record] using head_of_callbacks hbelow

end Outside

section Calls

variable {T L : Type} {b mid next : Layered T L} {order : List TimerId}

theorem Layered.coreStep_of_step {own : Action} {core : State}
    (hown : step .nonZts b.core own = some core) :
    b.coreStep own = some { b with core := core } := by
  rw [coreStep, hown, Option.map_some]

theorem Layered.coreStep_eq {own : Action} (hmid : b.coreStep own = some mid) :
    step .nonZts b.core own = some mid.core ∧ mid.timers = b.timers := by
  obtain ⟨core, hown, rfl⟩ := Option.map_eq_some_iff.mp hmid
  exact ⟨hown, rfl⟩

theorem Layered.coreStep_core {own : Action} (hmid : b.coreStep own = some mid)
    (hsame : next.core = mid.core) : step .nonZts b.core own = some next.core :=
  (coreStep_eq hmid).1.trans (congrArg some hsame.symm)

/-- The calls that PHP code can always make are made while no function of the
extension waits on the stack. -/
theorem Layered.call_outside (hcore : Inv b.core order) {move : Move} {core : State}
    (hcall : phpStep .nonZts 0 b.core move = if b.core.runsPhp 0 then some core else none)
    (hmid : b.coreStep (.php 0 move) = some mid) :
    mid = { b with core := core } ∧ b.core.runsPhp 0 = true ∧
      ∀ other, (b.core.stack 0).head? ≠ some (.destroy other .timerlib) := by
  obtain ⟨after, hown, rfl⟩ := Option.map_eq_some_iff.mp hmid
  obtain ⟨hphp, heq⟩ := Option.ite_none_right_eq_some.mp (hcall.symm.trans hown)
  cases heq
  exact ⟨rfl, hphp, head_of_callbacks (hcore.user_stack hphp)⟩

end Calls

end Excimer.Timer
