import Excimer.Timer.Invariant

/-!
How expiries reach the callbacks in the build without thread safety. The trace
tells when a timer is initialised; from then on until its destruction starts,
every expiry that `excimer_timer_handle` reports is in exactly one of three
places: passed to the callback, dequeued, or counted in `event_count` with the
timer on the pending list. A list that is not empty is always on its way to be
drained.
-/

namespace Excimer.Timer

open CircularList

/-- The last thing that happened to a timer, of initialisation and return of
`excimer_timer_destroy`, is a successful initialisation. -/
def initialised (timer : TimerId) : List Event → Bool
  | [] => false
  | .init other ok :: rest => if other = timer then ok else initialised timer rest
  | .destroyed other :: rest => if other = timer then false else initialised timer rest
  | _ :: rest => initialised timer rest

/-- Expiries are reported and delivered for initialised timers only. -/
def lawful : List Event → Prop
  | [] => True
  | .handle timer _ :: rest => initialised timer rest = true ∧ lawful rest
  | .callback timer _ :: rest => initialised timer rest = true ∧ lawful rest
  | _ :: rest => lawful rest

/-- A destroyed timer stays so until somebody initialises it again. -/
theorem initialised_after_destroyed {timer : TimerId} {newer older : List Event}
    (hinit : ∀ ok, .init timer ok ∉ newer) :
    initialised timer (newer ++ .destroyed timer :: older) = false := by
  induction newer with
  | nil => simp [initialised]
  | cons event rest ih =>
      have hrest := ih fun ok hmem => hinit ok (List.mem_cons_of_mem _ hmem)
      cases event with
      | init other ok =>
          have hne : other ≠ timer := by
            rintro rfl
            exact hinit ok (List.mem_cons_self ..)
          simpa [initialised, hne] using hrest
      | destroyed other => simpa [initialised] using fun _ => hrest
      | start other => exact hrest
      | stop other => exact hrest
      | handle other overrunCount => exact hrest
      | callback other count => exact hrest
      | warning message => exact hrest

/-- Nothing is reported or delivered for a destroyed timer. -/
theorem lawful_after_destroyed {timer : TimerId} {newer older : List Event}
    (hlawful : lawful (newer ++ .destroyed timer :: older))
    (hinit : ∀ ok, .init timer ok ∉ newer) :
    (∀ overrunCount, .handle timer overrunCount ∉ newer) ∧
      ∀ count, .callback timer count ∉ newer := by
  induction newer with
  | nil => simp
  | cons event rest ih =>
      have hrest : ∀ ok, .init timer ok ∉ rest := fun ok hmem =>
        hinit ok (List.mem_cons_of_mem _ hmem)
      have hfalse : initialised timer (rest ++ .destroyed timer :: older) = false :=
        initialised_after_destroyed hrest
      have hother {other : TimerId}
          (hactive : initialised other (rest ++ .destroyed timer :: older) = true) :
          timer ≠ other := by
        rintro rfl
        exact Bool.false_ne_true (hfalse.symm.trans hactive)
      cases event with
      | handle other overrunCount =>
          obtain ⟨hactive, hlawful⟩ := hlawful
          simpa [hother hactive] using ih hlawful hrest
      | callback other count =>
          obtain ⟨hactive, hlawful⟩ := hlawful
          simpa [hother hactive] using ih hlawful hrest
      | init other ok => simpa using ih hlawful hrest
      | destroyed other => simpa using ih hlawful hrest
      | start other => simpa using ih hlawful hrest
      | stop other => simpa using ih hlawful hrest
      | warning message => simpa using ih hlawful hrest

/-- `excimer_timer_destroy` is running for a timer. -/
def destroying (timer : TimerId) (frames : List Frame) : Bool :=
  frames.any fun
    | .destroy other _ => other == timer
    | _ => false

/-- The timer can be reached from `pending_head` by following `pending_next`. -/
def OnPendingList (s : State) (tls : Thread) (timer : TimerId) : Prop :=
  ∃ head, (s.tls tls).pendingHead = some head ∧
    Relation.ReflTransGen (fun t u => (s.timers t).pendingNext = some u) head timer

/-- The flag `is_valid` agrees with the history. -/
structure Recorded (s : State) : Prop where
  valid : ∀ timer, (s.timers timer).isValid = initialised timer s.trace
  lawful : lawful s.trace

section Steps

variable {s next : State} {order : List TimerId}

theorem Recorded.same (h : Recorded s)
    (hvalid : ∀ timer, (next.timers timer).isValid = (s.timers timer).isValid)
    (htrace : next.trace = s.trace) : Recorded next where
  valid timer := by
    rw [hvalid, htrace]
    exact h.valid timer
  lawful := htrace ▸ h.lawful

/-- A step that records one event of an initialised timer. -/
theorem Recorded.active (h : Recorded s) {timer : TimerId} {event : Event}
    (hvalid : ∀ other, (next.timers other).isValid = (s.timers other).isValid)
    (htrace : next.trace = event :: s.trace)
    (hevent : (∃ overrunCount, event = .handle timer overrunCount) ∨
      ∃ count, event = .callback timer count)
    (hactive : (s.timers timer).isValid = true) : Recorded next := by
  have hinit : initialised timer s.trace = true := (h.valid timer).symm.trans hactive
  have hsame (other : TimerId) :
      initialised other (event :: s.trace) = initialised other s.trace := by
    rcases hevent with ⟨overrunCount, rfl⟩ | ⟨count, rfl⟩ <;> rfl
  refine ⟨?_, ?_⟩
  · intro other
    rw [hvalid, htrace, hsame]
    exact h.valid other
  · rw [htrace]
    rcases hevent with ⟨overrunCount, rfl⟩ | ⟨count, rfl⟩ <;> exact ⟨hinit, h.lawful⟩

theorem setRunning_isValid (timer : TimerId) (running : Bool) (other : TimerId) :
    ((s.setRunning timer running).timers other).isValid = (s.timers other).isValid := by
  by_cases heq : other = timer <;> simp [State.setRunning, State.setTimer, heq]

theorem timerStart_recorded (h : Recorded s) (timer : TimerId)
    (period initial : Timespec) (ok : Bool) :
    Recorded (timerStart s timer period initial ok) := by
  unfold timerStart
  repeat' split
  · exact ⟨h.valid, h.lawful⟩
  · exact ⟨h.valid, h.lawful⟩
  · exact ⟨fun other => (setRunning_isValid timer true other).trans (h.valid other), h.lawful⟩
  · exact h

theorem timerStop_recorded (h : Recorded s) (timer : TimerId) (ok : Bool) :
    Recorded (timerStop s timer ok) := by
  unfold timerStop
  repeat' split
  · exact ⟨h.valid, h.lawful⟩
  · exact ⟨fun other => (setRunning_isValid timer false other).trans (h.valid other), h.lawful⟩
  · exact h
  · exact ⟨h.valid, h.lawful⟩

theorem timerInit_recorded (h : Recorded s) (timer : TimerId) (ok : Bool) :
    Recorded (timerInit .nonZts 0 s timer ok) := by
  refine ⟨fun other => ?_, ?_⟩
  · have hold := h.valid other
    by_cases heq : other = timer
    · cases ok <;> simp [timerInit, State.setTimer, State.record, initialised, heq]
    · cases ok <;>
        simp [timerInit, State.setTimer, State.record, initialised, heq, Ne.symm heq, hold]
  · cases ok <;> exact h.lawful

theorem timerDestroy_recorded (hinv : Inv s order) (h : Recorded s) (timer : TimerId) :
    Recorded (timerDestroy .nonZts 0 s timer) := by
  unfold timerDestroy
  split
  · next hinvalid =>
      refine ⟨fun other => ?_, h.lawful⟩
      change (s.timers other).isValid = if timer = other then false else _
      split
      · next heq => exact heq ▸ hinvalid
      · exact h.valid other
  · next hvalid =>
      have htls : Build.nonZts.tls (.php 0) = .php 0 := rfl
      rw [if_neg (by simp [htls, (hinv.owner timer (by simpa using hvalid)).1])]
      exact h.same (setRunning_isValid timer false) rfl

theorem finish_recorded (h : Recorded s) (timer : TimerId) (rest : List Frame) :
    Recorded (((s.setTimer timer { s.timers timer with isValid := false, tls := none }).setStack 0
      rest).record (.destroyed timer)) := by
  refine ⟨fun other => ?_, h.lawful⟩
  have hold := h.valid other
  by_cases heq : other = timer
  · simp [State.setTimer, State.setStack, State.record, initialised, heq]
  · simp [State.setTimer, State.setStack, State.record, initialised, heq,
      Ne.symm heq, hold]

theorem phpStep_recorded (hinv : Inv s order) (h : Recorded s) (move : Move)
    (hstep : phpStep .nonZts 0 s move = some next) : Recorded next := by
  cases phpStep_moves hstep with
  | init => exact timerInit_recorded h _ _
  | start => exact timerStart_recorded h _ _ _ _
  | stop => exact timerStop_recorded h _ _
  | destroy => exact timerDestroy_recorded hinv h _
  | join => exact h.same (fun _ => rfl) rfl
  | lock => exact h.same (fun _ => rfl) rfl
  | remove => exact h.same (fun _ => rfl) rfl
  | unlock => exact h.same (fun _ => rfl) rfl
  | finish => exact finish_recorded h _ _
  | interrupt => exact h.same (fun _ => rfl) rfl
  | dequeue =>
      obtain ⟨rest, _, ⟨_, hnext⟩ | ⟨timer, _, _, hlink, _, _, _, htrace⟩⟩ :=
        step_dequeue hinv hstep
      · rw [hnext]
        exact h.same (fun _ => rfl) rfl
      · exact h.same (fun other => (hlink.timers other).1) htrace
  | @call timer count rest hstack =>
      have hactive := (hinv.dequeued timer count (by rw [hstack]; rfl)).2.1
      exact h.active (fun _ => rfl) rfl (Or.inr ⟨count, rfl⟩) hactive
  | ret => exact h.same (fun _ => rfl) rfl

theorem step_recorded (hinv : Inv s order) (h : Recorded s) (action : Action)
    (hstep : step .nonZts s action = some next) : Recorded next := by
  cases step_moves hstep with
  | @handle timer overrunCount number after hhandler =>
      obtain ⟨hlink, _, _, _, htrace, _⟩ := step_handle hinv hstep
      have hactive := ((hinv.served timer).mp (by simp [hhandler])).1
      exact h.active (fun other => (hlink.timers other).1) htrace
        (Or.inl ⟨overrunCount, rfl⟩) hactive
  | store => exact h.same (fun _ => rfl) rfl
  | raise => exact h.same (fun _ => rfl) rfl
  | php =>
      obtain ⟨rfl, hmove⟩ := step_php hstep
      exact phpStep_recorded hinv h _ hmove

end Steps

theorem reachable_recorded {s : State} (hreach : Reachable .nonZts s) : Recorded s := by
  refine Transition.Reachable.invariant_with (fun s => ∃ order, Inv s order) Recorded
    (fun _ => reachable_inv) ?_ ?_ hreach
  · rintro _ rfl
    exact ⟨fun _ => rfl, trivial⟩
  · rintro s action next ⟨order, hinv⟩ h hstep
    exact step_recorded hinv h action hstep

theorem Inv.onPendingList_iff {s : State} {order : List TimerId} (h : Inv s order)
    (timer : TimerId) : OnPendingList s (.php 0) timer ↔ timer ∈ order :=
  h.ring.reach_iff timer

theorem not_destroy_of_not_destroying {timer : TimerId} {frames : List Frame}
    (h : destroying timer frames = false) (pc : DestroyPc) :
    frames.head? ≠ some (.destroy timer pc) := by
  intro hhead
  have hfalse := List.any_eq_false.mp h _ (List.mem_of_head? hhead)
  simp at hfalse

/-- No expiry is lost or counted twice: between the initialisation of a timer
and the start of its destruction, what the handler thread has reported is what
the callback has been told, plus what is about to be told to it, plus
`event_count`; and the count is not zero exactly while the timer is pending. -/
theorem expiries_accounted {s : State} (hreach : Reachable .nonZts s) :
    (∀ timer count, .callback timer count ∈ s.trace → 1 ≤ count) ∧
      ∀ timer, initialised timer s.trace = true →
        destroying timer (s.stack 0) = false →
        delivered timer s.trace + inFlight timer (s.stack 0) +
            (s.timers timer).eventCount = handled timer s.trace ∧
          (0 < (s.timers timer).eventCount ↔ OnPendingList s (.php 0) timer) := by
  obtain ⟨order, h⟩ := reachable_inv hreach
  refine ⟨h.positive, fun timer hinit hdestroy => ?_⟩
  have hvalid := ((reachable_recorded hreach).valid timer).trans hinit
  have htracked : Tracked s timer :=
    ⟨hvalid, not_destroy_of_not_destroying hdestroy _, not_destroy_of_not_destroying hdestroy _⟩
  refine ⟨h.balance timer htracked, ?_⟩
  rw [h.onPendingList_iff]
  constructor
  · intro hpos
    by_contra hout
    have hzero := h.count_unlisted timer htracked hout
    omega
  · intro hmem
    have hcount := h.count_listed timer hmem
    omega

/-- Two expiries are reported, then a third while the callback runs. -/
def reportedTwice : List Action :=
  [.php 0 (.init 5 true), .handle 5 1, .store 5, .php 0 .interrupt, .php 0 .dequeue,
    .php 0 .call, .handle 5 0]

theorem expiries_accounted_reportedTwice :
    ∃ s, Transition.run (step .nonZts) State.initial reportedTwice = some s ∧
      delivered 5 s.trace = 2 ∧
      delivered 5 s.trace + inFlight 5 (s.stack 0) + (s.timers 5).eventCount =
        handled 5 s.trace ∧
      (0 < (s.timers 5).eventCount ↔ OnPendingList s (.php 0) 5) := by
  obtain ⟨s, hrun, hcheck⟩ := Transition.run_check (step .nonZts) State.initial reportedTwice
    (fun s => initialised 5 s.trace && !destroying 5 (s.stack 0) && delivered 5 s.trace == 2)
    (by decide)
  have hreach : Reachable .nonZts s := ⟨State.initial, reportedTwice, rfl, hrun⟩
  simp only [Bool.and_eq_true, Bool.not_eq_true', beq_iff_eq] at hcheck
  obtain ⟨⟨hinit, hdestroy⟩, htwo⟩ := hcheck
  exact ⟨s, hrun, htwo, (expiries_accounted hreach).2 5 hinit hdestroy⟩

/-- The handler thread never meets a null pointer: it can run its critical
section whenever the mutex is free. -/
theorem handle_enabled {s : State} (hreach : Reachable .nonZts s) {timer : TimerId}
    {number : Nat} (hhandler : s.handlers timer = some ⟨number, false⟩)
    (hfree : (s.tls (.php 0)).mutex = none) {overrunCount : Int}
    (hlow : 0 ≤ overrunCount) (hhigh : overrunCount + 1 ≤ intMax) :
    ∃ next, step .nonZts s (.handle timer overrunCount) = some next := by
  obtain ⟨order, h⟩ := reachable_inv hreach
  have htls : Build.nonZts.tls (.handler number) = .php 0 := rfl
  have hring : ((s.setTimer timer { s.timers timer with
      eventCount := (s.timers timer).eventCount + toInt (overrunCount + 1) }).links
        (.php 0)).Represents order := by
    rw [links_setTimer (by rfl) (by rfl)]
    exact h.ring
  obtain ⟨links, hlinks, -⟩ := listEnqueue_spec hring timer
  simp only [step, hhandler, hlow, hhigh, and_self, if_true, handleEnqueue, htls, hfree, hlinks]
  exact ⟨_, rfl⟩

theorem dequeue_enabled {s : State} {order : List TimerId} (h : Inv s order)
    {rest : List Frame} (hstack : s.stack 0 = .drain :: rest) :
    ∃ next, phpStep .nonZts 0 s .dequeue = some next := by
  have hfree := h.mutex
  rw [hstack] at hfree
  simp only [phpStep, hstack]
  cases order with
  | nil =>
      rw [pendingDequeue_nil h.ring hfree]
      exact ⟨_, rfl⟩
  | cons timer others =>
      obtain ⟨mid, hmid, -⟩ := @pendingDequeue_cons s .nonZts (.php 0) timer others h.ring hfree
      rw [hmid]
      exact ⟨_, rfl⟩

theorem destroyNext_enabled {s : State} {order : List TimerId} (h : Inv s order)
    {timer : TimerId} {pc : DestroyPc} {rest : List Frame}
    (hstack : s.stack 0 = .destroy timer pc :: rest)
    (hjoin : pc = .timerlib → ∀ number, s.handlers timer ≠ some ⟨number, true⟩) :
    ∃ next, phpStep .nonZts 0 s .destroyNext = some next := by
  have hmutex := h.mutex
  have htls : Build.nonZts.tls (.php 0) = .php 0 := rfl
  simp only [phpStep, hstack] at hmutex ⊢
  cases pc with
  | timerlib =>
      simp only [destroyNext]
      split
      · next number hstoring => exact absurd hstoring (hjoin rfl number)
      · exact ⟨_, rfl⟩
  | lock => exact ⟨_, if_pos hmutex⟩
  | remove =>
      obtain ⟨links, hlinks, -⟩ := listRemove_spec h.ring timer
      exact ⟨_, by simp only [destroyNext, htls, hlinks]; rfl⟩
  | unlock => exact ⟨_, rfl⟩
  | finish => exact ⟨_, rfl⟩

/-- Inside the extension the PHP thread always has a next step, so it neither
meets a null pointer nor waits for the mutex. It can only wait in the timer
library, for a handler thread that is about to store the interrupt flag. -/
theorem php_progress {s : State} (hreach : Reachable .nonZts s)
    (hbusy : s.runsPhp 0 = false) :
    (∃ move next, phpStep .nonZts 0 s move = some next) ∨
      ∃ timer rest number, s.stack 0 = .destroy timer .timerlib :: rest ∧
        s.handlers timer = some ⟨number, true⟩ := by
  obtain ⟨order, h⟩ := reachable_inv hreach
  unfold State.runsPhp at hbusy
  cases hstack : s.stack 0 with
  | nil => simp [hstack] at hbusy
  | cons top rest =>
      cases top with
      | drain => exact Or.inl ⟨.dequeue, dequeue_enabled h hstack⟩
      | deliver timer count => exact Or.inl ⟨.call, _, by simp only [phpStep, hstack]; rfl⟩
      | callback timer => simp [hstack] at hbusy
      | destroy timer pc =>
          by_cases hwait : pc = .timerlib ∧ ∃ number, s.handlers timer = some ⟨number, true⟩
          · obtain ⟨rfl, number, hstoring⟩ := hwait
            exact Or.inr ⟨timer, rest, number, rfl, hstoring⟩
          · refine Or.inl ⟨.destroyNext, destroyNext_enabled h hstack ?_⟩
            intro hpc number hstoring
            exact hwait ⟨hpc, number, hstoring⟩

/-- A frame of an interrupt loop that has been entered and has not yet found
the list empty. -/
def Frame.inLoop : Frame → Bool
  | .drain | .deliver _ _ | .callback _ => true
  | .destroy _ _ => false

/-- Somebody is going to drain the list: the VM has been told, a handler
thread is about to tell it, or a loop is running. -/
def Awaited (s : State) : Prop :=
  s.vmInterrupt 0 = true ∨ (∃ timer number, s.handlers timer = some ⟨number, true⟩) ∨
    ∃ frame ∈ s.stack 0, frame.inLoop = true

/-- A pending list that is not empty is going to be drained. -/
def Woken (s : State) : Prop := (s.tls (.php 0)).pendingHead ≠ none → Awaited s

section Wakeup

variable {s next : State} {order : List TimerId}

/-- A step that neither fills the list nor withdraws a reason to drain it. -/
theorem Woken.keep (h : Woken s)
    (hhead : (s.tls (.php 0)).pendingHead = none → (next.tls (.php 0)).pendingHead = none)
    (hflag : s.vmInterrupt 0 = true → next.vmInterrupt 0 = true)
    (hhandlers : ∀ timer number, s.handlers timer = some ⟨number, true⟩ →
      next.handlers timer = some ⟨number, true⟩)
    (hstack : ∀ frame ∈ s.stack 0, frame.inLoop = true → frame ∈ next.stack 0) :
    Woken next := by
  intro hpending
  rcases h (mt hhead hpending) with hset | ⟨timer, number, hstoring⟩ | ⟨frame, hmem, hloop⟩
  · exact Or.inl (hflag hset)
  · exact Or.inr (Or.inl ⟨timer, number, hhandlers timer number hstoring⟩)
  · exact Or.inr (Or.inr ⟨frame, hstack frame hmem hloop, hloop⟩)

theorem woken_of_loop (frame : Frame) (hmem : frame ∈ next.stack 0)
    (hloop : frame.inLoop = true) : Woken next :=
  fun _ => Or.inr (Or.inr ⟨frame, hmem, hloop⟩)

/-- The flag a handler thread stores to is the one of the PHP thread. -/
theorem store_woken (hinv : Inv s order) {timer : TimerId}
    (hstep : step .nonZts s (.store timer) = some next) : Woken next := by
  cases step_moves hstep with
  | @store _ number php hhandler hptr =>
      have hvalid := ((hinv.served timer).mp (by simp [hhandler])).1
      have hphp : php = 0 := by
        have howner := (hinv.owner timer hvalid).2
        rw [hptr] at howner
        exact Option.some.inj howner
      exact fun _ => Or.inl (by simp [hphp])

theorem timerInit_woken (hinv : Inv s order) (h : Woken s) {timer : TimerId}
    (hinvalid : (s.timers timer).isValid = false) (ok : Bool) :
    Woken (timerInit .nonZts 0 s timer ok) := by
  have hnone := hinv.handler_none hinvalid
  cases ok with
  | false => exact h.keep id id (fun _ _ => id) (fun _ hmem _ => hmem)
  | true =>
      refine h.keep ?_ id ?_ (fun _ hmem _ => hmem)
      · intro hhead
        simpa [timerInit, State.record, Build.nonZts] using hhead
      · intro other number hstoring
        have hne : other ≠ timer := by
          rintro rfl
          rw [hnone] at hstoring
          cases hstoring
        simpa [timerInit, State.record, hne] using hstoring

/-- Every other move of `excimer_timer_destroy` replaces its frame, which is not
one of a loop. -/
theorem loop_below {timer : TimerId} {pc : DestroyPc} {rest : List Frame}
    (hstack : s.stack 0 = .destroy timer pc :: rest) {frame : Frame} (hmem : frame ∈ s.stack 0)
    (hin : frame.inLoop = true) : frame ∈ rest := by
  rw [hstack] at hmem
  rcases List.mem_cons.mp hmem with rfl | hrest
  · cases hin
  · exact hrest

theorem destroyNext_woken (hinv : Inv s order) (h : Woken s)
    (hstep : phpStep .nonZts 0 s .destroyNext = some next) : Woken next := by
  have htls : Build.nonZts.tls (.php 0) = .php 0 := rfl
  cases phpStep_moves hstep with
  | @join timer rest hstack hidle =>
      refine h.keep ?_ id ?_ ?_
      · simp [State.setStack, htls]
      · intro other number hstoring
        have hne : other ≠ timer := by
          rintro rfl
          exact hidle number hstoring
        simpa [State.setStack, hne] using hstoring
      · intro frame hmem hin
        simp [State.setStack, loop_below hstack hmem hin]
  | lock hstack =>
      refine h.keep ?_ id (fun _ _ => id) ?_
      · simp [State.setStack, State.setMutex, htls]
      · intro frame hmem hin
        simp [State.setStack, loop_below hstack hmem hin]
  | @remove timer rest links hstack hremove =>
      have hlink := remove_relinked hinv hremove (.destroy timer .unlock :: rest)
      refine h.keep ?_ id (fun _ _ => id) ?_
      · intro hhead
        have hempty : order = [] := List.head?_eq_none_iff.mp (hinv.ring.head_eq ▸ hhead)
        have hafter := hlink.ring.head_eq
        rw [hempty] at hafter
        exact hafter
      · intro frame hmem hin
        simp [State.setStack, loop_below hstack hmem hin]
  | unlock hstack =>
      refine h.keep ?_ id (fun _ _ => id) ?_
      · simp [State.setStack, State.setMutex, htls]
      · intro frame hmem hin
        simp [State.setStack, loop_below hstack hmem hin]
  | finish hstack =>
      refine h.keep id id (fun _ _ => id) ?_
      intro frame hmem hin
      simpa [State.setStack, State.record] using loop_below hstack hmem hin

theorem dequeue_woken (hinv : Inv s order)
    (hstep : phpStep .nonZts 0 s .dequeue = some next) : Woken next := by
  obtain ⟨rest, _, ⟨hempty, rfl⟩ | ⟨timer, _, _, _, _, hstack, _, _⟩⟩ := step_dequeue hinv hstep
  · intro hpending
    have hhead := hinv.ring.head_eq
    rw [hempty] at hhead
    exact absurd hhead hpending
  · exact woken_of_loop _ (hstack ▸ List.mem_cons_self ..) rfl

theorem phpStep_woken (hinv : Inv s order) (h : Woken s) (move : Move)
    (hstep : phpStep .nonZts 0 s move = some next) : Woken next := by
  cases phpStep_moves hstep with
  | init _ hinvalid => exact timerInit_woken hinv h hinvalid _
  | start =>
      unfold timerStart
      repeat' split
      all_goals exact h.keep id id (fun _ _ => id) (fun _ hmem _ => hmem)
  | stop =>
      unfold timerStop
      repeat' split
      all_goals exact h.keep id id (fun _ _ => id) (fun _ hmem _ => hmem)
  | destroy =>
      unfold timerDestroy
      split
      · exact h.keep id id (fun _ _ => id) (fun _ hmem _ => hmem)
      · split
        · exact h.keep id id (fun _ _ => id) (fun _ hmem _ => hmem)
        · refine h.keep id id (fun _ _ => id) (fun frame hmem _ => ?_)
          simp [State.setStack, hmem]
  | join => exact destroyNext_woken hinv h hstep
  | lock => exact destroyNext_woken hinv h hstep
  | remove => exact destroyNext_woken hinv h hstep
  | unlock => exact destroyNext_woken hinv h hstep
  | finish => exact destroyNext_woken hinv h hstep
  | interrupt => exact woken_of_loop .drain (by simp [State.setStack]) rfl
  | dequeue => exact dequeue_woken hinv hstep
  | @call timer =>
      exact woken_of_loop (.callback timer) (by simp [State.setStack, State.record]) rfl
  | ret => exact woken_of_loop .drain (by simp [State.setStack]) rfl

theorem step_woken (hinv : Inv s order) (h : Woken s) (action : Action)
    (hstep : step .nonZts s action = some next) : Woken next := by
  cases step_moves hstep with
  | @handle timer _ number => exact fun _ => Or.inr (Or.inl ⟨timer, number, by simp⟩)
  | store => exact store_woken hinv hstep
  | raise =>
      refine h.keep id ?_ (fun _ _ => id) (fun _ hmem _ => hmem)
      intro hset
      simp only [Function.update_apply, hset, ite_self]
  | php =>
      obtain ⟨rfl, hmove⟩ := step_php hstep
      exact phpStep_woken hinv h _ hmove

end Wakeup

/-- No wake-up is lost: whenever the pending list is not empty, the interrupt
flag is set, or some handler thread is about to set it, or an interrupt loop
has not yet made its last dequeue. -/
theorem no_lost_wakeup {s : State} (hreach : Reachable .nonZts s)
    (hpending : (s.tls (.php 0)).pendingHead ≠ none) :
    s.vmInterrupt 0 = true ∨ (∃ timer number, s.handlers timer = some ⟨number, true⟩) ∨
      ∃ frame ∈ s.stack 0, frame.inLoop = true := by
  suffices hwoken : Woken s from hwoken hpending
  refine Transition.Reachable.invariant_with (fun s => ∃ order, Inv s order) Woken
    (fun _ => reachable_inv) ?_ ?_ hreach
  · rintro _ rfl
    exact fun hpending => absurd rfl hpending
  · rintro s action next ⟨order, hinv⟩ h hstep
    exact step_woken hinv h action hstep

/-- A timer expires again while the interrupt loop drains its first expiry,
and the VM has already cleared the flag. -/
theorem no_lost_wakeup_reportedTwice :
    ∃ s, Transition.run (step .nonZts) State.initial reportedTwice = some s ∧
      s.vmInterrupt 0 = false ∧ (s.tls (.php 0)).pendingHead = some 5 ∧
      (s.vmInterrupt 0 = true ∨ (∃ timer number, s.handlers timer = some ⟨number, true⟩) ∨
        ∃ frame ∈ s.stack 0, frame.inLoop = true) := by
  obtain ⟨s, hrun, hcheck⟩ := Transition.run_check (step .nonZts) State.initial reportedTwice
    (fun s => !s.vmInterrupt 0 && (s.tls (.php 0)).pendingHead == some 5) (by decide)
  have hreach : Reachable .nonZts s := ⟨State.initial, reportedTwice, rfl, hrun⟩
  simp only [Bool.and_eq_true, Bool.not_eq_true', beq_iff_eq] at hcheck
  exact ⟨s, hrun, hcheck.1, hcheck.2, no_lost_wakeup hreach (by simp [hcheck.2])⟩

end Excimer.Timer
