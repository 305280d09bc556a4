import Excimer.Timer.Termination

/-!
Every expiry reaches its callback. The list of pending timers is a queue, so what
is ahead of a timer only gets less, and it cannot stay the same for ever: as long
as the list is not empty somebody is going to drain it, and a fair scheduler, a
virtual machine that looks at its interrupt flag, and callbacks that return bring
the next dequeue about.
-/

namespace Excimer.Timer

section Position

variable {s next : State} {order : List TimerId} {timer : TimerId}

theorem idxOf_erase_le {order : List TimerId} {timer other : TimerId} (hne : timer ≠ other) :
    (order.erase other).idxOf timer ≤ order.idxOf timer := by
  induction order with
  | nil => rfl
  | cons first rest ih =>
      by_cases hfirst : first = other
      · subst hfirst
        rw [List.erase_cons_head, List.idxOf_cons_ne rest (Ne.symm hne)]
        exact Nat.le_succ _
      · rw [List.erase_cons_tail (by simpa using hfirst)]
        by_cases hsame : first = timer
        · subst hsame
          simp
        · rw [List.idxOf_cons_ne _ hsame, List.idxOf_cons_ne _ hsame]
          exact Nat.succ_le_succ ih

/-- The queue that the pointers of the pending list form. -/
noncomputable def pendingOrder (s : State) : List TimerId :=
  Classical.epsilon fun order => (s.links (.php 0)).Represents order

theorem pendingOrder_eq (h : (s.links (.php 0)).Represents order) : pendingOrder s = order :=
  (Classical.epsilon_spec
    (p := fun order => (s.links (.php 0)).Represents order) ⟨order, h⟩).determined h

/-- The timer has left the list, for its callback or for its end. -/
def Taken (timer : TimerId) (s : State) : Prop :=
  (∃ count rest, s.stack 0 = .deliver timer count :: rest) ∨
    ∃ pc rest, s.stack 0 = .destroy timer pc :: rest

/-- A pending timer stays where it is in the queue or moves on, and every dequeue
makes it move on. -/
theorem step_position (h : Inv s order) (hmem : timer ∈ order) (htaken : ¬Taken timer s)
    {action : Action} (hstep : step .nonZts s action = some next) :
    Taken timer next ∨ ∃ after, Inv next after ∧ timer ∈ after ∧
      after.idxOf timer ≤ order.idxOf timer ∧
      (action = .php 0 .dequeue → after.idxOf timer < order.idxOf timer) := by
  have hkept (hafter : Inv next order) (hother : action ≠ .php 0 .dequeue) :
      Taken timer next ∨ ∃ after, Inv next after ∧ timer ∈ after ∧
        after.idxOf timer ≤ order.idxOf timer ∧
        (action = .php 0 .dequeue → after.idxOf timer < order.idxOf timer) :=
    Or.inr ⟨order, hafter, hmem, le_rfl, fun heq => absurd heq hother⟩
  cases step_moves hstep with
  | @handle other overrunCount =>
      refine Or.inr ⟨enqueued order other, handle_inv h hstep, by simp [hmem], ?_, by simp⟩
      unfold enqueued
      split
      · exact le_rfl
      · rw [List.idxOf_append_of_mem hmem]
  | store => exact hkept (store_inv h hstep) (by simp)
  | raise => exact hkept (raise_inv h hstep) (by simp)
  | @php number move _ _ hmove =>
      obtain ⟨rfl, hmove⟩ := step_php hstep
      cases phpStep_moves hmove with
      | init hphp hinvalid => exact hkept (timerInit_inv h hphp hinvalid _) (by simp)
      | start => exact hkept (timerStart_inv h _ _ _ _) (by simp)
      | stop => exact hkept (timerStop_inv h _ _) (by simp)
      | destroy hphp => exact hkept (timerDestroy_inv h hphp _) (by simp)
      | join hstack => exact hkept (destroy_join_inv h hstack) (by simp)
      | lock hstack =>
          exact hkept (destroy_mutex_inv h hstack rfl (by simp) (by simp) (by simp)) (by simp)
      | @remove other rest links hstack hremove =>
          have hne : timer ≠ other := by
            rintro rfl
            exact htaken (Or.inr ⟨_, _, hstack⟩)
          refine Or.inr ⟨order.erase other, destroy_remove_inv h hstack hremove, ?_,
            idxOf_erase_le hne, by simp⟩
          exact (List.mem_erase_of_ne hne).mpr hmem
      | unlock hstack =>
          exact hkept (destroy_mutex_inv h hstack rfl (by simp) (by simp) (by simp)) (by simp)
      | finish hstack => exact hkept (destroy_finish_inv h hstack) (by simp)
      | interrupt hphp => exact hkept (interrupt_inv h hphp) (by simp)
      | dequeue =>
          obtain ⟨rest, -, ⟨hempty, -⟩ | ⟨first, others, horder, hlink, -, hstack, -, -⟩⟩ :=
            step_dequeue h hmove
          · rw [hempty] at hmem
            cases hmem
          · obtain ⟨after, hafter⟩ := dequeue_inv h hmove
            obtain rfl := hafter.ring.determined hlink.ring
            rw [horder] at hmem ⊢
            by_cases hfirst : first = timer
            · subst hfirst
              exact Or.inl (Or.inl ⟨_, _, hstack⟩)
            · have hlater : timer ∈ after :=
                (List.mem_cons.mp hmem).resolve_left (Ne.symm hfirst)
              rw [List.idxOf_cons_ne _ hfirst]
              exact Or.inr ⟨after, hafter, hlater, Nat.le_succ _, fun _ => Nat.lt_succ_self _⟩
      | call hstack => exact hkept (call_inv h hstack) (by simp)
      | ret hstack => exact hkept (ret_inv h hstack) (by simp)

end Position

section Storing

variable {s next : State} {order : List TimerId} {timer : TimerId}

/-- A handler thread that is about to set the interrupt flag stays there until it
sets it. -/
theorem step_storing (h : Inv s order) {number : Nat}
    (hstoring : s.handlers timer = some ⟨number, true⟩) {action : Action}
    (hstep : step .nonZts s action = some next) :
    next.vmInterrupt 0 = true ∨ next.handlers timer = some ⟨number, true⟩ := by
  have hvalid : (s.timers timer).isValid = true :=
    ((h.served timer).mp (by simp [hstoring])).1
  have hne {other : TimerId} (hother : ∀ number, s.handlers other ≠ some ⟨number, true⟩) :
      timer ≠ other := by
    rintro rfl
    exact hother number hstoring
  cases step_moves hstep with
  | @handle other _ _ _ hhandler =>
      obtain ⟨-, -, -, -, -, _, -, hhandlers⟩ := step_handle h hstep
      rw [hhandlers, Function.update_of_ne (hne (by simp [hhandler]))]
      exact Or.inr hstoring
  | @store other _ php hhandler hptr =>
      by_cases heq : timer = other
      · subst heq
        have hphp : php = 0 := Option.some.inj (hptr.symm.trans (h.owner timer hvalid).2)
        exact Or.inl (by simp [hphp])
      · exact Or.inr (by simpa [heq] using hstoring)
  | raise => exact Or.inr hstoring
  | php =>
      obtain ⟨rfl, hmove⟩ := step_php hstep
      cases phpStep_moves hmove with
      | @init other ok _ hinvalid =>
          have hnone := h.handler_none hinvalid
          have hother : timer ≠ other := hne (by simp [hnone])
          cases ok with
          | true => exact Or.inr (by simpa [timerInit, State.record, hother] using hstoring)
          | false => exact Or.inr hstoring
      | start =>
          refine Or.inr ?_
          unfold timerStart
          repeat' split
          all_goals exact hstoring
      | stop =>
          refine Or.inr ?_
          unfold timerStop
          repeat' split
          all_goals exact hstoring
      | destroy =>
          refine Or.inr ?_
          unfold timerDestroy
          repeat' split
          all_goals exact hstoring
      | @join other _ _ hidle =>
          exact Or.inr (by simpa [State.setStack, hne hidle] using hstoring)
      | dequeue =>
          obtain ⟨rest, -, ⟨-, hnext⟩ | ⟨_, _, -, -, -, -, hhandlers, -⟩⟩ := step_dequeue h hmove
          · rw [hnext]
            exact Or.inr hstoring
          · rw [hhandlers]
            exact Or.inr hstoring
      | _ => exact Or.inr hstoring

end Storing

/-- The virtual machine takes the flag away only when it enters the interrupt
handler. -/
theorem step_flag {s next : State} {order : List TimerId} (h : Inv s order)
    (hflag : s.vmInterrupt 0 = true) {action : Action}
    (hstep : step .nonZts s action = some next) :
    next.vmInterrupt 0 = true ∨ ∃ rest, next.stack 0 = .drain :: rest := by
  cases step_moves hstep with
  | handle =>
      obtain ⟨hlink, -⟩ := step_handle h hstep
      exact Or.inl (hlink.flag ▸ hflag)
  | store => exact Or.inl (by simp [Function.update_apply, hflag])
  | raise => exact Or.inl (by simp [Function.update_apply, hflag])
  | php =>
      obtain ⟨rfl, hmove⟩ := step_php hstep
      cases phpStep_moves hmove with
      | @init _ ok => cases ok <;> exact Or.inl hflag
      | start =>
          refine Or.inl ?_
          unfold timerStart
          repeat' split
          all_goals exact hflag
      | stop =>
          refine Or.inl ?_
          unfold timerStop
          repeat' split
          all_goals exact hflag
      | destroy =>
          refine Or.inl ?_
          unfold timerDestroy
          repeat' split
          all_goals exact hflag
      | interrupt => exact Or.inr ⟨_, by simp [State.setStack]; rfl⟩
      | dequeue =>
          obtain ⟨rest, -, ⟨-, hnext⟩ | ⟨_, _, -, hlink, -⟩⟩ := step_dequeue h hmove
          · rw [hnext]
            exact Or.inl hflag
          · exact Or.inl (hlink.flag ▸ hflag)
      | _ => exact Or.inl hflag

theorem runsPhp_of_callbacks {s : State}
    (hcallbacks : ∀ frame ∈ s.stack 0, ∃ timer, frame = .callback timer) : s.runsPhp 0 = true := by
  unfold State.runsPhp
  cases hstack : s.stack 0 with
  | nil => rfl
  | cons frame rest =>
      obtain ⟨timer, rfl⟩ := hcallbacks frame (by simp [hstack])
      rfl

theorem reachable_woken {s : State} (hreach : Reachable .nonZts s) : Woken s := by
  refine Transition.Reachable.invariant_with (fun s => ∃ order, Inv s order) Woken
    (fun _ => reachable_inv) ?_ ?_ hreach
  · rintro _ rfl
    exact fun hpending => absurd rfl hpending
  · rintro s action next ⟨order, hinv⟩ h hstep
    exact step_woken hinv h action hstep

namespace Posix

/-- What only PHP code and the virtual machine decide: to take a pending interrupt,
and to return from a callback. -/
def Action.polls : Action → Bool
  | .php .interrupt | .php .ret => true
  | _ => false

/-- The PHP thread goes on inside the extension and every handler thread goes on.
PHP code that runs again and again while an interrupt is pending is interrupted,
and a callback that runs again and again returns. -/
structure Fair (behaviour : Transition.Behaviour step) : Prop where
  extension : behaviour.WeaklyFair Action.ofExtension
  handlers : ∀ timer, behaviour.WeaklyFair (Action.ofHandler timer)
  polls : behaviour.StronglyFair Action.polls

/-- What the interrupt handler does next. -/
def loopMove : Frame → Option Move
  | .drain => some .dequeue
  | .deliver _ _ => some .call
  | _ => none

section Frames

variable {b next : State}

/-- The moves of the interrupt handler are those of `excimer_timer.c`. -/
theorem loop_core {move : Move}
    (hmove : move = .interrupt ∨ move = .dequeue ∨ move = .call ∨ move = .ret)
    (hstep : step b (.php move) = some next) :
    Timer.phpStep .nonZts 0 b.core move = some next.core := by
  have hcore : b.coreStep (.php 0 move) = some next := by
    rcases hmove with rfl | rfl | rfl | rfl <;> exact hstep
  obtain ⟨core, hown, rfl⟩ := Option.map_eq_some_iff.mp hcore
  exact (step_php hown).2

theorem library_of_loop (hreach : Reachable b) {frame : Frame} {rest : List Frame}
    (hstack : b.core.stack 0 = frame :: rest) (hframe : (loopMove frame).isSome = true) :
    b.library = none := by
  apply (reachable_inv hreach).library_none
  intro timer hhead
  rw [hstack] at hhead
  cases hhead
  cases hframe

/-- Inside the interrupt handler the PHP thread can do one thing only. -/
theorem loop_step (hreach : Reachable b) {frame : Frame} {rest : List Frame} {move : Move}
    (hstack : b.core.stack 0 = frame :: rest) (hframe : loopMove frame = some move)
    {action : Action} (hstep : step b action = some next) :
    action = .php move ∨
      next.core.stack 0 = frame :: rest ∧ action.ofExtension = false := by
  have hlibrary := library_of_loop hreach hstack (by simp [hframe])
  cases action with
  | php other =>
      refine Or.inl ?_
      cases frame with
      | drain =>
          cases hframe
          have hphp : b.core.runsPhp 0 = false := by simp [Timer.State.runsPhp, hstack]
          cases other <;>
            simp [step, phpStep, Layered.coreStep, Timer.step, Timer.phpStep, hphp, hstack]
              at hstep ⊢
      | deliver timer count =>
          cases hframe
          have hphp : b.core.runsPhp 0 = false := by simp [Timer.State.runsPhp, hstack]
          cases other <;>
            simp [step, phpStep, Layered.coreStep, Timer.step, Timer.phpStep, hphp, hstack]
              at hstep ⊢
      | callback timer => cases hframe
      | destroy timer pc => cases hframe
  | library ok => simp [step, hlibrary] at hstep
  | _ =>
      refine Or.inr ⟨?_, rfl⟩
      exact (other_keeps hreach (by simp) (by simp) hstep).1.trans hstack

theorem loop_enabled (hreach : Reachable b) {frame : Frame} {rest : List Frame}
    (hstack : b.core.stack 0 = frame :: rest) (hframe : (loopMove frame).isSome = true) :
    Transition.Enabled step Action.ofExtension b := by
  obtain ⟨order, hcore⟩ := Timer.reachable_inv (core_reachable hreach)
  cases frame with
  | drain =>
      obtain ⟨core, hmove⟩ := dequeue_enabled hcore hstack
      have hown : Timer.step .nonZts b.core (.php 0 .dequeue) = some core := hmove
      exact ⟨.php .dequeue, rfl, by simp [step, phpStep, Layered.coreStep, hown]⟩
  | deliver timer count =>
      obtain ⟨core, hown⟩ : ∃ core, Timer.step .nonZts b.core (.php 0 .call) = some core :=
        ⟨_, by simp only [Timer.step, Timer.phpStep, hstack]; rfl⟩
      exact ⟨.php .call, rfl, by simp [step, phpStep, Layered.coreStep, hown]⟩
  | callback timer => cases hframe
  | destroy timer pc => cases hframe

/-- Between callbacks the virtual machine polls the flag, and a callback can return. -/
theorem polls_enabled (hruns : b.core.runsPhp 0 = true)
    (hreason : b.core.vmInterrupt 0 = true ∨ b.core.stack 0 ≠ []) :
    Transition.Enabled step Action.polls b := by
  cases hstack : b.core.stack 0 with
  | nil =>
      have hflag := hreason.resolve_right (by simp [hstack])
      exact ⟨.php .interrupt, rfl, by
        simp [step, phpStep, Layered.coreStep, Timer.step, Timer.phpStep, Build.nonZts, hruns,
          hflag]⟩
  | cons frame rest =>
      obtain ⟨timer, rfl⟩ : ∃ timer, frame = .callback timer := by
        cases frame <;> simp [Timer.State.runsPhp, hstack] at hruns ⊢
      exact ⟨.php .ret, rfl, by
        simp [step, phpStep, Layered.coreStep, Timer.step, Timer.phpStep, Build.nonZts, hstack]⟩

theorem polls_step {action : Action} (hpolls : action.polls = true)
    (hstep : step b action = some next) : ∃ rest, next.core.stack 0 = .drain :: rest := by
  cases action with
  | php move =>
      cases move with
      | interrupt =>
          have hmove := loop_core (by simp) hstep
          generalize next.core = core at hmove ⊢
          cases phpStep_moves hmove with
          | interrupt => exact ⟨_, by simp [Timer.State.setStack]; rfl⟩
      | ret =>
          have hmove := loop_core (by simp) hstep
          generalize next.core = core at hmove ⊢
          cases phpStep_moves hmove with
          | ret => exact ⟨_, by simp [Timer.State.setStack]; rfl⟩
      | _ => cases hpolls
  | _ => cases hpolls

theorem flag_step (hreach : Reachable b) (hflag : b.core.vmInterrupt 0 = true) {action : Action}
    (hstep : step b action = some next) :
    next.core.vmInterrupt 0 = true ∨ ∃ rest, next.core.stack 0 = .drain :: rest := by
  obtain ⟨order, hcore⟩ := Timer.reachable_inv (core_reachable hreach)
  rcases step_core action hstep with hsame | ⟨own, hown, -⟩
  · exact Or.inl (hsame ▸ hflag)
  · exact step_flag hcore hflag hown

theorem thread_of_storing (hreach : Reachable b) {timer : TimerId} {number : Nat}
    (hstoring : b.core.handlers timer = some ⟨number, true⟩) :
    (b.timers timer).thread = .storing :=
  ((reachable_inv hreach).timers timer).storing.mpr ⟨number, hstoring⟩

theorem store_enabled (hreach : Reachable b) {timer : TimerId} {number : Nat}
    (hstoring : b.core.handlers timer = some ⟨number, true⟩) :
    Transition.Enabled step (Action.ofHandler timer) b := by
  obtain ⟨order, hcore⟩ := Timer.reachable_inv (core_reachable hreach)
  have hvalid := ((hcore.served timer).mp (by simp [hstoring])).1
  have hptr := (hcore.owner timer hvalid).2
  obtain ⟨core, hown⟩ : ∃ core, Timer.step .nonZts b.core (.store timer) = some core := by
    simp only [Timer.step, hstoring, hptr]
    exact ⟨_, rfl⟩
  refine ⟨.store timer, by simp [Action.ofHandler], ?_⟩
  simp [step, thread_of_storing hreach hstoring, Layered.coreStep, hown]

/-- The next step of such a thread is the one that sets the flag. -/
theorem storing_step (hreach : Reachable b) {timer : TimerId} {number : Nat}
    (hstoring : b.core.handlers timer = some ⟨number, true⟩) {action : Action}
    (hstep : step b action = some next) :
    next.core.vmInterrupt 0 = true ∨
      next.core.handlers timer = some ⟨number, true⟩ ∧ action.ofHandler timer = false := by
  obtain ⟨order, hcore⟩ := Timer.reachable_inv (core_reachable hreach)
  have hthread := thread_of_storing hreach hstoring
  cases hown : action.ofHandler timer with
  | false =>
      rcases step_core action hstep with hsame | ⟨own, hcoreStep, -⟩
      · exact Or.inr ⟨hsame ▸ hstoring, rfl⟩
      · exact (step_storing hcore hstoring hcoreStep).imp_right fun hstays => ⟨hstays, rfl⟩
  | true =>
      refine Or.inl ?_
      cases action with
      | store other =>
          obtain rfl : other = timer := by simpa [Action.ofHandler] using hown
          obtain ⟨-, hstep⟩ := Option.ite_none_right_eq_some.mp hstep
          obtain ⟨mid, hmid, rfl⟩ := Option.map_eq_some_iff.mp hstep
          obtain ⟨core, hstore, rfl⟩ := Option.map_eq_some_iff.mp hmid
          cases step_moves hstore with
          | @store _ _ php _ hptr =>
              have hvalid := ((hcore.served other).mp (by simp [hstoring])).1
              have hphp : php = 0 := Option.some.inj (hptr.symm.trans (hcore.owner other hvalid).2)
              simp [Layered.setTimer, hphp]
      | wake other signal =>
          obtain rfl : other = timer := by simpa [Action.ofHandler] using hown
          simp [step, TimerlibTimer.wake, hthread] at hstep
      | test other =>
          obtain rfl : other = timer := by simpa [Action.ofHandler] using hown
          simp [step, TimerlibTimer.test, hthread] at hstep
      | notify other =>
          obtain rfl : other = timer := by simpa [Action.ofHandler] using hown
          simp [step, hthread] at hstep
      | _ => cases hown

end Frames

section Fair

variable {behaviour : Transition.Behaviour step} {n : ℕ}

theorem reachable_later (hreach : Reachable (behaviour.state n)) {m : ℕ} (hle : n ≤ m) :
    Reachable (behaviour.state m) :=
  behaviour.invariant (fun _ _ _ h hstep => h.step_from hstep) hle hreach

/-- The interrupt handler goes on. -/
theorem loop_moves (hreach : Reachable (behaviour.state n))
    (hphp : behaviour.WeaklyFair Action.ofExtension) {frame : Frame} {rest : List Frame}
    {move : Move} (hstack : (behaviour.state n).core.stack 0 = frame :: rest)
    (hframe : loopMove frame = some move) :
    ∃ m, n ≤ m ∧ (behaviour.state m).core.stack 0 = frame :: rest ∧
      behaviour.action m = some (.php move) := by
  by_contra hnever
  push Not at hnever
  have hstays (m : ℕ) (hle : n ≤ m) : (behaviour.state m).core.stack 0 = frame :: rest := by
    induction m, hle using Nat.le_induction with
    | base => exact hstack
    | succ m hle ih =>
        cases haction : behaviour.action m with
        | none => rw [Transition.Behaviour.next_of_none haction, ih]
        | some action =>
            have hstep := Transition.Behaviour.next_of_some haction
            rcases loop_step (reachable_later hreach hle) ih hframe hstep with rfl | ⟨hsame, -⟩
            · exact absurd haction (hnever m hle ih)
            · exact hsame
  obtain ⟨m, hle, action, haction, hown⟩ := hphp n fun m hle =>
    loop_enabled (reachable_later hreach hle) (hstays m hle) (by simp [hframe])
  have hstep := Transition.Behaviour.next_of_some haction
  rcases loop_step (reachable_later hreach hle) (hstays m hle) hframe hstep with rfl | ⟨-, hother⟩
  · exact hnever m hle (hstays m hle) haction
  · rw [hown] at hother
    cases hother

theorem deliver_runs (hreach : Reachable (behaviour.state n)) (hfair : Fair behaviour)
    {timer : TimerId} {count : Int} {rest : List Frame}
    (hstack : (behaviour.state n).core.stack 0 = .deliver timer count :: rest) :
    ∃ m, n ≤ m ∧ (behaviour.state m).core.runsPhp 0 = true := by
  obtain ⟨m, hle, hstill, haction⟩ := loop_moves hreach hfair.extension hstack rfl
  refine ⟨m + 1, Nat.le_succ_of_le hle, ?_⟩
  have hmove := loop_core (by simp) (Transition.Behaviour.next_of_some haction)
  generalize (behaviour.state (m + 1)).core = core at hmove ⊢
  cases phpStep_moves hmove with
  | call => simp [Timer.State.runsPhp, Timer.State.setStack, Timer.State.record]

/-- Whatever it does in the extension, the PHP thread comes back to PHP code. -/
theorem runs_again (hreach : Reachable (behaviour.state n)) (hfair : Fair behaviour) :
    ∃ m, n ≤ m ∧ (behaviour.state m).core.runsPhp 0 = true := by
  obtain ⟨order, hcore⟩ := Timer.reachable_inv (core_reachable hreach)
  have hbelow := hcore.below
  cases hstack : (behaviour.state n).core.stack 0 with
  | nil => exact ⟨n, le_rfl, by simp [Timer.State.runsPhp, hstack]⟩
  | cons frame rest =>
      rw [hstack] at hbelow
      cases frame with
      | callback timer => exact ⟨n, le_rfl, by simp [Timer.State.runsPhp, hstack]⟩
      | deliver timer count => exact deliver_runs hreach hfair hstack
      | destroy timer pc =>
          obtain ⟨m, hle, hreturned, -⟩ :=
            Destroying.returns hfair.extension (hfair.handlers timer) ⟨hreach, pc, hstack⟩
          refine ⟨m, hle, runsPhp_of_callbacks ?_⟩
          rw [hreturned]
          exact hbelow
      | drain =>
          obtain ⟨m, hle, hstill, haction⟩ := loop_moves hreach hfair.extension hstack rfl
          have hmove := loop_core (by simp) (Transition.Behaviour.next_of_some haction)
          obtain ⟨order', hcore'⟩ :=
            Timer.reachable_inv (core_reachable (reachable_later hreach hle))
          have hnext : n ≤ m + 1 := Nat.le_succ_of_le hle
          obtain ⟨rest', hrest, ⟨-, hpopped⟩ | ⟨timer, _, -, -, -, hdeliver, -⟩⟩ :=
            step_dequeue hcore' hmove
          · rw [hstill] at hrest
            cases hrest
            refine ⟨m + 1, hnext, runsPhp_of_callbacks ?_⟩
            rw [hpopped]
            simpa [Timer.State.setStack] using hbelow
          · obtain ⟨k, hk, hruns⟩ := deliver_runs (reachable_later hreach hnext) hfair hdeliver
            exact ⟨k, hnext.trans hk, hruns⟩

/-- The handler thread of a reported expiry sets the flag. -/
theorem flag_set (hreach : Reachable (behaviour.state n)) (hfair : Fair behaviour)
    {timer : TimerId} {number : Nat}
    (hstoring : (behaviour.state n).core.handlers timer = some ⟨number, true⟩) :
    ∃ m, n ≤ m ∧ (behaviour.state m).core.vmInterrupt 0 = true := by
  refine Transition.Behaviour.eventually_of_helpful
    (fun b => Reachable b ∧ b.core.handlers timer = some ⟨number, true⟩)
    (fun b => b.core.vmInterrupt 0 = true) (fun _ => 0)
    (fun _ : Unit => Action.ofHandler timer) (fun _ => ()) (fun _ => hfair.handlers timer)
    ?_ ?_ ⟨hreach, hstoring⟩
  · rintro b ⟨hreach, hstoring⟩ -
    exact store_enabled hreach hstoring
  · rintro b action next ⟨hreach, hstoring⟩ - hstep
    rcases storing_step hreach hstoring hstep with hflag | ⟨hstays, hother⟩
    · exact Or.inl hflag
    · exact Or.inr ⟨⟨hreach.step_from hstep, hstays⟩, Or.inr ⟨rfl, rfl, hother⟩⟩

/-- A list that does not become empty is dequeued from. -/
theorem dequeues_again (hreach : Reachable (behaviour.state n)) (hfair : Fair behaviour)
    (hpending : ∀ m, n ≤ m → ((behaviour.state m).core.tls (.php 0)).pendingHead ≠ none) :
    ∃ m, n ≤ m ∧ behaviour.action m = some (.php .dequeue) := by
  by_contra hnever
  push Not at hnever
  -- the interrupt handler would dequeue, so it is not entered and no callback returns to it
  have hdrain (m : ℕ) (hle : n ≤ m) (rest : List Frame) :
      (behaviour.state m).core.stack 0 ≠ .drain :: rest := by
    intro hstack
    obtain ⟨k, hk, -, haction⟩ := loop_moves (reachable_later hreach hle) hfair.extension hstack rfl
    exact hnever k (hle.trans hk) haction
  have hquiet (m : ℕ) (hle : n ≤ m) : ¬behaviour.Moves Action.polls m := by
    rintro ⟨action, haction, hpolls⟩
    obtain ⟨rest, hstack⟩ := polls_step hpolls (Transition.Behaviour.next_of_some haction)
    exact hdrain (m + 1) (Nat.le_succ_of_le hle) rest hstack
  obtain ⟨late, hlate, hsilent⟩ : ∃ m, n ≤ m ∧
      ∀ k, m ≤ k → ¬Transition.Enabled step Action.polls (behaviour.state k) := by
    by_contra hagain
    push Not at hagain
    obtain ⟨m, hle, hmoves⟩ := hfair.polls n hagain
    exact hquiet m hle hmoves
  -- from some time on, PHP code runs without an interrupt and outside of callbacks
  have hidle (m : ℕ) (hle : late ≤ m) (hruns : (behaviour.state m).core.runsPhp 0 = true) :
      (behaviour.state m).core.vmInterrupt 0 ≠ true ∧ (behaviour.state m).core.stack 0 = [] := by
    constructor
    · intro hflag
      exact hsilent m hle (polls_enabled hruns (Or.inl hflag))
    · by_contra hstack
      exact hsilent m hle (polls_enabled hruns (Or.inr hstack))
  obtain ⟨m, hm, hruns⟩ := runs_again (reachable_later hreach hlate) hfair
  have hnm := hlate.trans hm
  obtain ⟨hunset, hstack⟩ := hidle m hm hruns
  have hreachable := reachable_later hreach hnm
  rcases reachable_woken (core_reachable hreachable) (hpending m hnm) with
    hset | ⟨timer, number, hstoring⟩ | ⟨frame, hmem, -⟩
  · exact hunset hset
  · -- a handler thread sets the flag, and then it stays set
    obtain ⟨k, hk, hflag⟩ := flag_set hreachable hfair hstoring
    have hstays (j : ℕ) (hj : k ≤ j) : (behaviour.state j).core.vmInterrupt 0 = true := by
      induction j, hj using Nat.le_induction with
      | base => exact hflag
      | succ j hj ih =>
          have hnj := hnm.trans (hk.trans hj)
          cases haction : behaviour.action j with
          | none => exact (Transition.Behaviour.next_of_none haction).symm ▸ ih
          | some action =>
              have hstep := Transition.Behaviour.next_of_some haction
              rcases flag_step (reachable_later hreach hnj) ih hstep with hset | ⟨rest, hstack⟩
              · exact hset
              · exact absurd hstack (hdrain (j + 1) (Nat.le_succ_of_le hnj) rest)
    obtain ⟨j, hj, hruns'⟩ := runs_again (reachable_later hreach (hnm.trans hk)) hfair
    exact (hidle j (hm.trans (hk.trans hj)) hruns').1 (hstays j hj)
  · rw [hstack] at hmem
    cases hmem

end Fair

section Queue

variable {b next : State} {timer : TimerId}

/-- A timer that waits for its turn. -/
def Pending (timer : TimerId) (b : State) : Prop :=
  Reachable b ∧ timer ∈ pendingOrder b.core

noncomputable def ahead (timer : TimerId) (b : State) : ℕ := (pendingOrder b.core).idxOf timer

theorem Pending.step (h : Pending timer b) (htaken : ¬Taken timer b.core) {action : Action}
    (hstep : step b action = some next) :
    Taken timer next.core ∨ Pending timer next ∧ ahead timer next ≤ ahead timer b ∧
      (action = .php .dequeue → ahead timer next < ahead timer b) := by
  obtain ⟨hreach, hmem⟩ := h
  obtain ⟨order, hcore⟩ := Timer.reachable_inv (core_reachable hreach)
  rw [pendingOrder_eq hcore.ring] at hmem
  have hmoves {own : Timer.Action} (hown : Timer.step .nonZts b.core own = some next.core)
      (hdequeue : action = .php .dequeue → own = .php 0 .dequeue) :
      Taken timer next.core ∨ Pending timer next ∧ ahead timer next ≤ ahead timer b ∧
        (action = .php .dequeue → ahead timer next < ahead timer b) := by
    rcases step_position hcore hmem htaken hown with htaken' | ⟨after, hafter, hlater, hle, hlt⟩
    · exact Or.inl htaken'
    · have hqueue := pendingOrder_eq hafter.ring
      refine Or.inr ⟨⟨hreach.step_from hstep, hqueue.symm ▸ hlater⟩, ?_, ?_⟩
      · rw [ahead, ahead, hqueue, pendingOrder_eq hcore.ring]
        exact hle
      · intro heq
        rw [ahead, ahead, hqueue, pendingOrder_eq hcore.ring]
        exact hlt (hdequeue heq)
  by_cases hdequeue : action = .php .dequeue
  · subst hdequeue
    have hown : Timer.step .nonZts b.core (.php 0 .dequeue) = some next.core :=
      loop_core (by simp) hstep
    exact hmoves hown fun _ => rfl
  · rcases step_core action hstep with hsame | ⟨own, hown, -⟩
    · refine Or.inr ⟨⟨hreach.step_from hstep, ?_⟩, ?_, fun heq => absurd heq hdequeue⟩
      · rw [hsame, pendingOrder_eq hcore.ring]
        exact hmem
      · rw [ahead, ahead, hsame]
    · exact hmoves hown fun heq => absurd heq hdequeue

theorem Pending.head_ne_none (h : Pending timer b) :
    (b.core.tls (.php 0)).pendingHead ≠ none := by
  obtain ⟨order, hcore⟩ := Timer.reachable_inv (core_reachable h.1)
  have hmem := h.2
  rw [pendingOrder_eq hcore.ring] at hmem
  intro hnone
  have hempty : order = [] := List.head?_eq_none_iff.mp (hcore.ring.head_eq ▸ hnone)
  rw [hempty] at hmem
  cases hmem

/-- Its turn comes. -/
theorem Pending.taken {behaviour : Transition.Behaviour Posix.step} (hfair : Fair behaviour)
    {n : ℕ} (h : Pending timer (behaviour.state n)) :
    ∃ m, n ≤ m ∧ Taken timer (behaviour.state m).core := by
  refine Transition.Behaviour.eventually_of_descent (Pending timer) (fun b => Taken timer b.core)
    (ahead timer) ?_ ?_ h
  · intro b action next h htaken hstep
    rcases h.step htaken hstep with htaken' | ⟨hpending, hle, -⟩
    · exact Or.inl htaken'
    · exact Or.inr ⟨hpending, hle⟩
  · intro n hstays
    obtain ⟨m, hle, haction⟩ := dequeues_again (hstays n le_rfl).1.1 hfair
      fun m hle => (hstays m hle).1.head_ne_none
    obtain ⟨hpending, htaken, hrank⟩ := hstays m hle
    obtain ⟨-, htaken', hrank'⟩ := hstays (m + 1) (Nat.le_succ_of_le hle)
    rcases hpending.step htaken (Transition.Behaviour.next_of_some haction) with
      hreached | ⟨-, -, hless⟩
    · exact htaken' hreached
    · have := hless rfl
      omega

end Queue

/-- Every expiry reaches its callback. A timer on the list of pending timers is
called with its count, at a moment at which the PHP thread has got to it, unless
PHP code destroys the timer first. -/
theorem expiry_delivered {behaviour : Transition.Behaviour step} {n : ℕ}
    (hreach : Reachable (behaviour.state n)) (hfair : Fair behaviour) {timer : TimerId}
    (hpending : OnPendingList (behaviour.state n).core (.php 0) timer) :
    ∃ m, n ≤ m ∧
      ((∃ count rest, 1 ≤ count ∧
        (behaviour.state m).core.stack 0 = .deliver timer count :: rest ∧
        behaviour.action m = some (.php .call)) ∨
      ∃ pc rest, (behaviour.state m).core.stack 0 = .destroy timer pc :: rest) := by
  obtain ⟨order, hcore⟩ := Timer.reachable_inv (core_reachable hreach)
  have hwaits : Pending timer (behaviour.state n) := by
    refine ⟨hreach, ?_⟩
    rw [pendingOrder_eq hcore.ring]
    exact (hcore.onPendingList_iff timer).mp hpending
  obtain ⟨m, hle, ⟨count, rest, hstack⟩ | ⟨pc, rest, hstack⟩⟩ := hwaits.taken hfair
  · obtain ⟨k, hk, hstill, haction⟩ :=
      loop_moves (reachable_later hreach hle) hfair.extension hstack rfl
    obtain ⟨order', hcore'⟩ :=
      Timer.reachable_inv (core_reachable (reachable_later hreach (hle.trans hk)))
    have hcount := (hcore'.dequeued timer count (by simp [hstill])).1
    exact ⟨k, hle.trans hk, Or.inl ⟨count, rest, hcount, hstill, haction⟩⟩
  · exact ⟨m, hle, Or.inr ⟨pc, rest, hstack⟩⟩

theorem not_enabled_polls {b : State} (hflag : b.core.vmInterrupt 0 = false)
    (hstack : b.core.stack 0 = []) : ¬Transition.Enabled step Action.polls b := by
  rintro ⟨action, hpolls, hsome⟩
  cases action with
  | php move =>
      cases move <;>
        simp [step, phpStep, Layered.coreStep, Timer.step, Timer.phpStep, hstack, hflag,
          Action.polls] at hpolls hsome
  | _ => cases hpolls

/-- Two timers expire before the virtual machine looks at its flag. -/
def bothExpire : List Action :=
  [.php (.init 5 true), .php (.init 6 true), .php (.start 5 ⟨0, 1000⟩ ⟨0, 0⟩ true),
    .php (.start 6 ⟨0, 1000⟩ ⟨0, 0⟩ true), .expire 5 .queued, .expire 6 .queued,
    .wake 5 (.timer 0), .wake 6 (.timer 0), .test 5, .test 6, .notify 5, .notify 6, .store 6]

/-- The interrupt handler calls both callbacks. -/
def bothAreCalled : List Action :=
  [.store 5, .php .interrupt, .php .dequeue, .php .call, .php .ret, .php .dequeue, .php .call,
    .php .ret, .php .dequeue]

theorem expiry_delivered_bothExpire :
    ∃ behaviour : Transition.Behaviour step, behaviour.state 0 = State.initial ∧
      OnPendingList (behaviour.state 13).core (.php 0) 6 ∧
      ∃ m, 13 ≤ m ∧
        ((∃ count rest, 1 ≤ count ∧
          (behaviour.state m).core.stack 0 = .deliver 6 count :: rest ∧
          behaviour.action m = some (.php .call)) ∨
        ∃ pc rest, (behaviour.state m).core.stack 0 = .destroy 6 pc :: rest) := by
  obtain ⟨final, hrun, hcheck⟩ := Transition.run_check step State.initial
    (bothExpire ++ bothAreCalled)
    (fun b => b.library == none && b.core.stack 0 == [] && !b.core.vmInterrupt 0 &&
      (b.timers 5).thread == .waiting && (b.timers 5).pending == [] &&
      (b.timers 6).thread == .waiting && (b.timers 6).pending == [] &&
      b.core.trace == [.callback 6 1, .callback 5 1, .handle 6 0, .handle 5 0, .start 6, .start 5,
        .init 6 true, .init 5 true]) (by decide)
  simp only [Bool.and_eq_true, beq_iff_eq, Bool.not_eq_true'] at hcheck
  obtain ⟨⟨⟨⟨⟨⟨⟨hlibrary, hstack⟩, hflag⟩, hfive⟩, hfive'⟩, hsix⟩, hsix'⟩, htrace⟩ := hcheck
  obtain ⟨mid, hmid, hcheck⟩ := Transition.run_check step State.initial
    ((bothExpire ++ bothAreCalled).take 13)
    (fun b => (b.core.tls (.php 0)).pendingHead == some 5 &&
      (b.core.timers 5).pendingNext == some 6) (by decide)
  simp only [Bool.and_eq_true, beq_iff_eq] at hcheck
  have hstate : (Transition.Behaviour.ofRun hrun).state 13 = mid := by
    simp [Transition.Behaviour.ofRun, hmid]
  have hpending : OnPendingList mid.core (.php 0) 6 :=
    ⟨5, hcheck.1, Relation.ReflTransGen.single hcheck.2⟩
  have hreach : Reachable final := ⟨State.initial, _, rfl, hrun⟩
  have hthreads (timer : TimerId) :
      ((final.timers timer).thread = .absent ∨ (final.timers timer).thread = .exited) ∨
        (final.timers timer).thread = .waiting ∧ (final.timers timer).pending = [] := by
    by_cases hfirst : timer = 5
    · exact Or.inr (hfirst ▸ ⟨hfive, hfive'⟩)
    · by_cases hsecond : timer = 6
      · exact Or.inr (hsecond ▸ ⟨hsix, hsix'⟩)
      · obtain ⟨order, hcore⟩ := Timer.reachable_inv (core_reachable hreach)
        have hinvalid : (final.core.timers timer).isValid = false := by
          rw [(reachable_recorded (core_reachable hreach)).valid, htrace]
          simp [initialised, Ne.symm hfirst, Ne.symm hsecond]
        have hok := (reachable_inv hreach).timers timer
        exact Or.inl (hok.ended (hcore.handler_none hinvalid))
  have hfair : Fair (.ofRun hrun) :=
    ⟨Transition.Behaviour.ofRun_weaklyFair hrun (not_enabled_extension hlibrary hstack),
      fun timer => Transition.Behaviour.ofRun_weaklyFair hrun
        (not_enabled_handler (hthreads timer)),
      Transition.Behaviour.ofRun_stronglyFair hrun (not_enabled_polls hflag hstack)⟩
  refine ⟨.ofRun hrun, rfl, hstate ▸ hpending, ?_⟩
  exact expiry_delivered (hstate ▸ ⟨State.initial, _, rfl, hmid⟩) hfair (hstate ▸ hpending)

end Posix

end Excimer.Timer
