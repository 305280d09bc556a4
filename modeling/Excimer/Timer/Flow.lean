import Excimer.Timer.Delivery

/-!
The expiries of one timer as they flow through `excimer_timer.c`, step by step.
They enter in `excimer_timer_handle` and leave when the callback is called; in
between they are held in `event_count` or in the interrupt loop. Only the
initialisation of the timer makes them disappear, and only the call of
`excimer_timer_destroy` ends the life of the timer.
-/

namespace Excimer.Timer

/-- The sum of the counts passed to the callback of a timer. -/
def passed (timer : TimerId) : List Event → Int
  | [] => 0
  | .callback other count :: rest =>
      if other = timer then passed timer rest + count else passed timer rest
  | _ :: rest => passed timer rest

theorem passed_append (timer : TimerId) (newer older : List Event) :
    passed timer (newer ++ older) = passed timer newer + passed timer older := by
  induction newer with
  | nil => simp [passed]
  | cons event rest ih =>
      cases event with
      | callback other count =>
          simp only [List.cons_append, passed, ih]
          split <;> omega
      | init other ok => exact ih
      | start other => exact ih
      | stop other => exact ih
      | handle other overrunCount => exact ih
      | destroyed other => exact ih
      | warning message => exact ih

theorem passed_bound {timer : TimerId} {events : List Event}
    (hpositive : ∀ count, .callback timer count ∈ events → 1 ≤ count) (count : Int) :
    0 ≤ passed timer events ∧ (.callback timer count ∈ events → 1 ≤ passed timer events) := by
  induction events with
  | nil => simp [passed]
  | cons event rest ih =>
      obtain ⟨hnonneg, hmem⟩ := ih fun c hc => hpositive c (List.mem_cons_of_mem _ hc)
      cases event with
      | callback other amount =>
          by_cases heq : other = timer
          · subst heq
            have hamount := hpositive amount (List.mem_cons_self ..)
            simp only [passed, if_true]
            exact ⟨by omega, fun _ => by omega⟩
          · simp only [passed, if_neg heq]
            refine ⟨hnonneg, fun hin => hmem ?_⟩
            simpa [Ne.symm heq] using hin
      | _ => exact ⟨hnonneg, fun hin => hmem (by simpa using hin)⟩

/-- Counts that are at least one add up to zero only if there are none. -/
theorem not_called_of_passed {timer : TimerId} {events : List Event}
    (hpositive : ∀ count, .callback timer count ∈ events → 1 ≤ count)
    (hzero : passed timer events ≤ 0) (count : Int) : .callback timer count ∉ events := by
  intro hin
  have hone := (passed_bound hpositive count).2 hin
  omega

/-- The expiries of a timer between `excimer_timer_handle` and its callback. -/
def held (timer : TimerId) (s : State) : Int :=
  inFlight timer (s.stack 0) + (s.timers timer).eventCount

/-- The expiries an action brings into `excimer_timer.c`. -/
def Action.entering (timer : TimerId) : Action → Int
  | .handle other overrunCount => if other = timer then overrunCount + 1 else 0
  | _ => 0

/-- From `s` to `next` the expiries of a timer are kept: what is passed to the
callback is taken from what is held. -/
structure Flow (timer : TimerId) (s next : State) (entering : Int) : Prop where
  kept : ∃ new, next.trace = new ++ s.trace ∧
    passed timer new + held timer next = held timer s + entering
  nonneg : 0 ≤ (s.timers timer).eventCount → 0 ≤ (next.timers timer).eventCount

section Flow

variable {s next : State} {order : List TimerId}

/-- A step that neither touches the counts nor passes one. -/
theorem Flow.still (timer : TimerId) (new : List Event) (htrace : next.trace = new ++ s.trace)
    (hpassed : passed timer new = 0)
    (hcount : (next.timers timer).eventCount = (s.timers timer).eventCount)
    (hflight : inFlight timer (next.stack 0) = inFlight timer (s.stack 0)) :
    Flow timer s next 0 := by
  refine ⟨⟨new, htrace, ?_⟩, ?_⟩
  · simp only [held, hpassed, hcount, hflight]
    omega
  · rw [hcount]
    exact id

theorem setRunning_eventCount (timer other : TimerId) (running : Bool) :
    ((s.setRunning other running).timers timer).eventCount = (s.timers timer).eventCount := by
  by_cases heq : timer = other <;> simp [State.setRunning, State.setTimer, heq]

theorem timerStart_flow (timer other : TimerId) (period initial : Timespec) (ok : Bool) :
    Flow timer s (timerStart s other period initial ok) 0 := by
  unfold timerStart
  repeat' split
  · exact Flow.still timer [_] rfl rfl rfl rfl
  · exact Flow.still timer [_] rfl rfl rfl rfl
  · exact Flow.still timer [_] rfl rfl (setRunning_eventCount timer other true) rfl
  · exact Flow.still timer [] rfl rfl rfl rfl

theorem timerStop_flow (timer other : TimerId) (ok : Bool) :
    Flow timer s (timerStop s other ok) 0 := by
  unfold timerStop
  repeat' split
  · exact Flow.still timer [_] rfl rfl rfl rfl
  · exact Flow.still timer [_] rfl rfl (setRunning_eventCount timer other false) rfl
  · exact Flow.still timer [] rfl rfl rfl rfl
  · exact Flow.still timer [_] rfl rfl rfl rfl

theorem timerDestroy_flow (hinv : Inv s order) (hphp : s.runsPhp 0 = true)
    (timer other : TimerId) : Flow timer s (timerDestroy .nonZts 0 s other) 0 := by
  have hquiet := quiet_of_callbacks (hinv.user_stack hphp)
  unfold timerDestroy
  repeat' split
  · exact Flow.still timer [_] rfl rfl rfl rfl
  · exact Flow.still timer [_, _] rfl rfl rfl rfl
  · refine Flow.still timer [] rfl rfl (setRunning_eventCount timer other false) ?_
    rw [hquiet.inFlight_eq]
    simp [State.setStack, inFlight]

theorem destroyNext_flow (hinv : Inv s order) (timer : TimerId)
    (hstep : phpStep .nonZts 0 s .destroyNext = some next) : Flow timer s next 0 := by
  cases phpStep_moves hstep with
  | join hstack =>
      exact Flow.still timer [] rfl rfl rfl (by simp [hstack, State.setStack, inFlight])
  | lock hstack =>
      exact Flow.still timer [] rfl rfl rfl (by simp [hstack, State.setStack, inFlight])
  | remove hstack =>
      exact Flow.still timer [] rfl rfl rfl (by simp [hstack, State.setStack, inFlight])
  | unlock hstack =>
      exact Flow.still timer [] rfl rfl rfl (by simp [hstack, State.setStack, inFlight])
  | @finish other rest hstack =>
      have hbefore : inFlight timer (s.stack 0) = 0 := by rw [hstack]; rfl
      have hbelow := hinv.below
      rw [hstack] at hbelow
      have hafter := (quiet_of_callbacks hbelow).inFlight_eq timer
      refine Flow.still timer [_] rfl rfl ?_ ?_
      · by_cases heq : timer = other <;>
          simp [State.setTimer, State.setStack, State.record, heq]
      · simpa [hbefore, State.setTimer, State.setStack, State.record] using hafter

theorem dequeue_flow (hinv : Inv s order) (timer : TimerId)
    (hstep : phpStep .nonZts 0 s .dequeue = some next) : Flow timer s next 0 := by
  obtain ⟨rest, hstack, ⟨_, rfl⟩ | ⟨other, _, _, _, hcount, hstack', _, htrace⟩⟩ :=
    step_dequeue hinv hstep
  · have hbelow := hinv.below
    rw [hstack] at hbelow
    have hafter := (quiet_of_callbacks hbelow).inFlight_eq timer
    refine Flow.still timer [] rfl rfl rfl ?_
    rw [hstack]
    simpa [State.setStack, inFlight] using hafter
  · refine ⟨⟨[], htrace, ?_⟩, ?_⟩
    · simp only [held, hcount, hstack, hstack', inFlight, passed]
      by_cases heq : timer = other
      · subst heq
        simp
      · simp [heq, Ne.symm heq]
    · rw [hcount]
      split
      · omega
      · exact id

/-- The callback is told exactly what has been dequeued for it. -/
theorem call_flow (timer : TimerId) (hstep : phpStep .nonZts 0 s .call = some next) :
    Flow timer s next 0 := by
  cases phpStep_moves hstep with
  | @call other count rest hstack =>
      refine ⟨⟨[.callback other count], rfl, ?_⟩, id⟩
      simp only [held, hstack, inFlight, passed]
      by_cases heq : other = timer
      · subst heq
        simp [State.setStack, State.record]
      · simp [State.setStack, State.record, heq]

theorem phpStep_flow (hinv : Inv s order) (timer : TimerId) (move : Move)
    (hinit : ∀ ok, move ≠ .init timer ok) (hstep : phpStep .nonZts 0 s move = some next) :
    Flow timer s next 0 := by
  cases phpStep_moves hstep with
  | @init other ok =>
      have hne : timer ≠ other := fun heq => hinit ok (heq ▸ rfl)
      refine Flow.still timer [.init other ok] ?_ rfl ?_ ?_
      · cases ok <;> rfl
      · cases ok <;> simp [timerInit, State.setTimer, State.record, hne]
      · cases ok <;> rfl
  | start => exact timerStart_flow timer _ _ _ _
  | stop => exact timerStop_flow timer _ _
  | destroy hphp => exact timerDestroy_flow hinv hphp timer _
  | join => exact destroyNext_flow hinv timer hstep
  | lock => exact destroyNext_flow hinv timer hstep
  | remove => exact destroyNext_flow hinv timer hstep
  | unlock => exact destroyNext_flow hinv timer hstep
  | finish => exact destroyNext_flow hinv timer hstep
  | interrupt hphp =>
      have hquiet := quiet_of_callbacks (hinv.user_stack hphp)
      refine Flow.still timer [] rfl rfl rfl ?_
      rw [hquiet.inFlight_eq]
      simp [State.setStack, inFlight]
  | dequeue => exact dequeue_flow hinv timer hstep
  | call => exact call_flow timer hstep
  | ret hstack =>
      refine Flow.still timer [] rfl rfl rfl ?_
      rw [hstack]
      simp [State.setStack, inFlight]

theorem handle_flow (hinv : Inv s order) (timer : TimerId) {other : TimerId}
    {overrunCount : Int} (hstep : step .nonZts s (.handle other overrunCount) = some next) :
    Flow timer s next (Action.entering timer (.handle other overrunCount)) := by
  obtain ⟨_, hlow, hcount, hstack, htrace, _⟩ := step_handle hinv hstep
  refine ⟨⟨[_], htrace, ?_⟩, ?_⟩
  · simp only [held, hcount, hstack, passed, Action.entering]
    by_cases heq : timer = other
    · subst heq
      simp
      omega
    · simp [heq, Ne.symm heq]
  · rw [hcount]
    split
    · next heq =>
        subst heq
        omega
    · exact id

/-- Only initialising a timer makes its expiries disappear. -/
theorem step_flow (hinv : Inv s order) (timer : TimerId) (action : Action)
    (hinit : ∀ number ok, action ≠ .php number (.init timer ok))
    (hstep : step .nonZts s action = some next) : Flow timer s next (action.entering timer) := by
  cases step_moves hstep with
  | handle => exact handle_flow hinv timer hstep
  | store => exact Flow.still timer [] rfl rfl rfl rfl
  | raise => exact Flow.still timer [] rfl rfl rfl rfl
  | php =>
      obtain ⟨rfl, hmove⟩ := step_php hstep
      exact phpStep_flow hinv timer _ (fun ok heq => hinit 0 ok (heq ▸ rfl)) hmove

/-- The PHP thread does not report expiries. -/
theorem phpStep_unreported (hinv : Inv s order) (move : Move)
    (hstep : phpStep .nonZts 0 s move = some next) :
    ∃ new, next.trace = new ++ s.trace ∧
      ∀ timer overrunCount, .handle timer overrunCount ∉ new := by
  have hone {event : Event} (hother : ∀ timer overrunCount, event ≠ .handle timer overrunCount)
      (htrace : next.trace = event :: s.trace) :
      ∃ new, next.trace = new ++ s.trace ∧
        ∀ timer overrunCount, .handle timer overrunCount ∉ new := by
    refine ⟨[event], htrace, ?_⟩
    intro timer overrunCount hmem
    exact hother timer overrunCount (List.mem_singleton.mp hmem).symm
  cases phpStep_moves hstep with
  | @init timer ok => cases ok <;> exact hone (by simp) rfl
  | start =>
      unfold timerStart
      repeat' split
      all_goals first
        | exact ⟨[], rfl, by simp⟩
        | exact ⟨[_], rfl, by simp⟩
  | stop =>
      unfold timerStop
      repeat' split
      all_goals first
        | exact ⟨[], rfl, by simp⟩
        | exact ⟨[_], rfl, by simp⟩
  | destroy =>
      unfold timerDestroy
      repeat' split
      · exact ⟨[_], rfl, by simp⟩
      · exact ⟨[_, _], rfl, by simp⟩
      · exact ⟨[], rfl, by simp⟩
  | join => exact ⟨[], rfl, by simp⟩
  | lock => exact ⟨[], rfl, by simp⟩
  | remove => exact ⟨[], rfl, by simp⟩
  | unlock => exact ⟨[], rfl, by simp⟩
  | finish => exact hone (by simp) rfl
  | interrupt => exact ⟨[], rfl, by simp⟩
  | dequeue =>
      obtain ⟨rest, -, ⟨-, hnext⟩ | ⟨timer, others, -, -, -, -, -, htrace⟩⟩ :=
        step_dequeue hinv hstep
      · exact ⟨[], by rw [hnext]; rfl, by simp⟩
      · exact ⟨[], htrace, by simp⟩
  | call => exact hone (by simp) rfl
  | ret => exact ⟨[], rfl, by simp⟩

/-- An expiry is reported by the call of `excimer_timer_handle` only. -/
theorem step_reports (hinv : Inv s order) (action : Action)
    (hstep : step .nonZts s action = some next) :
    ∃ new, next.trace = new ++ s.trace ∧ ∀ timer overrunCount,
      .handle timer overrunCount ∈ new → action = .handle timer overrunCount := by
  cases step_moves hstep with
  | handle =>
      obtain ⟨-, -, -, -, htrace, -⟩ := step_handle hinv hstep
      refine ⟨[_], htrace, ?_⟩
      intro timer overrunCount hmem
      cases List.mem_singleton.mp hmem
      rfl
  | store => exact ⟨[], rfl, by simp⟩
  | raise => exact ⟨[], rfl, by simp⟩
  | php =>
      obtain ⟨rfl, hmove⟩ := step_php hstep
      obtain ⟨new, htrace, hnone⟩ := phpStep_unreported hinv _ hmove
      exact ⟨new, htrace, fun timer overrunCount hmem => absurd hmem (hnone timer overrunCount)⟩

end Flow

section Alive

variable {s next : State} {order : List TimerId} {timer : TimerId}

theorem destroying_cons (timer : TimerId) (frame : Frame) (rest : List Frame) :
    destroying timer (frame :: rest) = false ↔
      (∀ pc, frame ≠ .destroy timer pc) ∧ destroying timer rest = false := by
  cases frame <;> simp [destroying]

theorem destroyNext_alive (hvalid : (s.timers timer).isValid = true)
    (hlive : destroying timer (s.stack 0) = false)
    (hstep : phpStep .nonZts 0 s .destroyNext = some next) :
    (next.timers timer).isValid = true ∧ destroying timer (next.stack 0) = false := by
  -- The stack is that of another timer's destruction, before the step and after it.
  have hother {other : TimerId} {pc : DestroyPc} {rest : List Frame}
      (hstack : s.stack 0 = .destroy other pc :: rest) :
      other ≠ timer ∧ destroying timer rest = false := by
    rw [hstack, destroying_cons] at hlive
    exact ⟨fun heq => hlive.1 pc (heq ▸ rfl), hlive.2⟩
  cases phpStep_moves hstep with
  | join hstack =>
      obtain ⟨hne, hrest⟩ := hother hstack
      exact ⟨hvalid, by simpa [State.setStack, destroying_cons, hne] using hrest⟩
  | lock hstack =>
      obtain ⟨hne, hrest⟩ := hother hstack
      exact ⟨hvalid, by simpa [State.setStack, destroying_cons, hne] using hrest⟩
  | remove hstack =>
      obtain ⟨hne, hrest⟩ := hother hstack
      exact ⟨hvalid, by simpa [State.setStack, destroying_cons, hne] using hrest⟩
  | unlock hstack =>
      obtain ⟨hne, hrest⟩ := hother hstack
      exact ⟨hvalid, by simpa [State.setStack, destroying_cons, hne] using hrest⟩
  | finish hstack =>
      obtain ⟨hne, hrest⟩ := hother hstack
      refine ⟨?_, by simpa [State.setStack, State.record] using hrest⟩
      simpa [State.setTimer, State.setStack, State.record, Ne.symm hne] using hvalid

theorem phpStep_alive (hinv : Inv s order) (move : Move) (hdestroy : move ≠ .destroy timer)
    (hvalid : (s.timers timer).isValid = true) (hlive : destroying timer (s.stack 0) = false)
    (hstep : phpStep .nonZts 0 s move = some next) :
    (next.timers timer).isValid = true ∧ destroying timer (next.stack 0) = false := by
  cases phpStep_moves hstep with
  | @init other ok _ hinvalid =>
      have hne : timer ≠ other := by
        rintro rfl
        rw [hinvalid] at hvalid
        cases hvalid
      cases ok <;>
        exact ⟨by simpa [timerInit, State.setTimer, State.record, hne] using hvalid, hlive⟩
  | @start other =>
      unfold timerStart
      repeat' split
      all_goals first
        | exact ⟨hvalid, hlive⟩
        | exact ⟨(setRunning_isValid other true timer).trans hvalid, hlive⟩
  | @stop other =>
      unfold timerStop
      repeat' split
      all_goals first
        | exact ⟨hvalid, hlive⟩
        | exact ⟨(setRunning_isValid other false timer).trans hvalid, hlive⟩
  | @destroy other =>
      have hne : other ≠ timer := fun heq => hdestroy (heq ▸ rfl)
      unfold timerDestroy
      repeat' split
      · exact ⟨hvalid, hlive⟩
      · exact ⟨hvalid, hlive⟩
      · refine ⟨(setRunning_isValid other false timer).trans hvalid, ?_⟩
        simpa [State.setStack, destroying_cons, hne] using hlive
  | join => exact destroyNext_alive hvalid hlive hstep
  | lock => exact destroyNext_alive hvalid hlive hstep
  | remove => exact destroyNext_alive hvalid hlive hstep
  | unlock => exact destroyNext_alive hvalid hlive hstep
  | finish => exact destroyNext_alive hvalid hlive hstep
  | interrupt => exact ⟨hvalid, by simpa [State.setStack, destroying_cons] using hlive⟩
  | dequeue =>
      obtain ⟨rest, hstack, ⟨_, hnext⟩ | ⟨other, _, _, hlink, _, hstack', _, _⟩⟩ :=
        step_dequeue hinv hstep
      · rw [hstack, destroying_cons] at hlive
        rw [hnext]
        exact ⟨hvalid, by simpa [State.setStack] using hlive.2⟩
      · rw [hstack, destroying_cons] at hlive
        refine ⟨(hlink.timers timer).1.trans hvalid, ?_⟩
        simpa [hstack', destroying_cons] using hlive.2
  | call hstack =>
      rw [hstack, destroying_cons] at hlive
      exact ⟨hvalid, by simpa [State.setStack, State.record, destroying_cons] using hlive.2⟩
  | ret hstack =>
      rw [hstack, destroying_cons] at hlive
      exact ⟨hvalid, by simpa [State.setStack, destroying_cons] using hlive.2⟩

/-- Only the call of `excimer_timer_destroy` ends the life of a timer. -/
theorem step_alive (hinv : Inv s order) (action : Action)
    (hdestroy : ∀ number, action ≠ .php number (.destroy timer))
    (hvalid : (s.timers timer).isValid = true) (hlive : destroying timer (s.stack 0) = false)
    (hstep : step .nonZts s action = some next) :
    (next.timers timer).isValid = true ∧ destroying timer (next.stack 0) = false := by
  cases step_moves hstep with
  | handle =>
      obtain ⟨hlink, _, _, hstack, _⟩ := step_handle hinv hstep
      exact ⟨(hlink.timers timer).1.trans hvalid, hstack.symm ▸ hlive⟩
  | store => exact ⟨hvalid, hlive⟩
  | raise => exact ⟨hvalid, hlive⟩
  | php =>
      obtain ⟨rfl, hmove⟩ := step_php hstep
      exact phpStep_alive hinv _ (fun heq => hdestroy 0 (heq ▸ rfl)) hvalid hlive hmove

end Alive

/-- The counts of all timers, valid or not, stay nonnegative. -/
theorem reachable_nonneg {s : State} (hreach : Reachable .nonZts s) (timer : TimerId) :
    0 ≤ (s.timers timer).eventCount := by
  refine Transition.Reachable.invariant_with (fun s => ∃ order, Inv s order)
    (fun s => 0 ≤ (s.timers timer).eventCount) (fun _ => reachable_inv) ?_ ?_ hreach
  · rintro _ rfl
    simp [State.initial]
  · rintro s action next ⟨order, hinv⟩ hnonneg hstep
    by_cases hinit : ∀ number ok, action ≠ .php number (.init timer ok)
    · exact (step_flow hinv timer action hinit hstep).nonneg hnonneg
    · simp only [not_forall, ne_eq, not_not] at hinit
      obtain ⟨number, ok, rfl⟩ := hinit
      obtain ⟨_, hmove⟩ := Option.ite_none_right_eq_some.mp hstep
      obtain ⟨_, heq⟩ := Option.ite_none_right_eq_some.mp hmove
      cases heq
      cases ok <;> simp [timerInit, State.setTimer, State.record]

end Excimer.Timer
