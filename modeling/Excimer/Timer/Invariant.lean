import Excimer.Timer.System

/-!
What holds in every reachable state of the build without thread safety. The
pointers of the pending list represent a duplicate-free list of valid timers,
a timer is in that list exactly when it has undelivered events, and the events
of a timer are accounted for from its initialisation to its destruction. The
sums are functions of the trace, so that the theorems built on this module can
be read without the invariant.
-/

namespace Excimer.Timer

open CircularList

/-- The sum of `overrun_count + 1` over the calls of `excimer_timer_handle`
for a timer since its last initialisation. -/
def handled (timer : TimerId) : List Event → Int
  | [] => 0
  | .init other _ :: rest => if other = timer then 0 else handled timer rest
  | .handle other overrunCount :: rest =>
      if other = timer then handled timer rest + (overrunCount + 1)
      else handled timer rest
  | _ :: rest => handled timer rest

/-- The sum of the counts passed to the callback of a timer since its last
initialisation. -/
def delivered (timer : TimerId) : List Event → Int
  | [] => 0
  | .init other _ :: rest => if other = timer then 0 else delivered timer rest
  | .callback other count :: rest =>
      if other = timer then delivered timer rest + count else delivered timer rest
  | _ :: rest => delivered timer rest

/-- A count that has been dequeued and whose callback is about to be called. -/
def inFlight (timer : TimerId) : List Frame → Int
  | .deliver other count :: _ => if other = timer then count else 0
  | _ => 0

/-- The holder of the mutex: only `excimer_timer_destroy` keeps it across
steps. -/
def holder : List Frame → Option Thread
  | .destroy _ .remove :: _ => some (.php 0)
  | .destroy _ .unlock :: _ => some (.php 0)
  | _ => none

/-- A timer from its successful initialisation to the moment when its
`excimer_timer_destroy` removes it from the pending list. -/
def Tracked (s : State) (timer : TimerId) : Prop :=
  (s.timers timer).isValid = true ∧
    (s.stack 0).head? ≠ some (.destroy timer .unlock) ∧
    (s.stack 0).head? ≠ some (.destroy timer .finish)

/-- A timer whose handler thread exists. -/
def Served (s : State) (timer : TimerId) : Prop :=
  (s.timers timer).isValid = true ∧
    ∀ pc, (s.stack 0).head? = some (.destroy timer pc) → pc = .timerlib

structure Inv (s : State) (order : List TimerId) : Prop where
  ring : (s.links (.php 0)).Represents order
  below : ∀ frame ∈ (s.stack 0).tail, ∃ timer, frame = .callback timer
  mutex : (s.tls (.php 0)).mutex = holder (s.stack 0)
  listed : ∀ timer ∈ order, Tracked s timer
  count_listed : ∀ timer ∈ order, 1 ≤ (s.timers timer).eventCount
  count_unlisted : ∀ timer, Tracked s timer → timer ∉ order →
    (s.timers timer).eventCount = 0
  balance : ∀ timer, Tracked s timer →
    delivered timer s.trace + inFlight timer (s.stack 0) +
      (s.timers timer).eventCount = handled timer s.trace
  served : ∀ timer, (s.handlers timer).isSome ↔ Served s timer
  owner : ∀ timer, (s.timers timer).isValid = true →
    (s.timers timer).tls = some (.php 0) ∧ (s.timers timer).vmInterruptPtr = some 0
  positive : ∀ timer count, .callback timer count ∈ s.trace → 1 ≤ count
  dequeued : ∀ timer count, (s.stack 0).head? = some (.deliver timer count) →
    1 ≤ count ∧ Tracked s timer
  destroying : ∀ timer pc, (s.stack 0).head? = some (.destroy timer pc) →
    (s.timers timer).isValid = true

theorem initial_inv : Inv State.initial [] where
  ring := Links.empty_represents
  below := by simp [State.initial]
  mutex := rfl
  listed := by simp
  count_listed := by simp
  count_unlisted := by simp [Tracked, State.initial]
  balance := by simp [Tracked, State.initial]
  served := by simp [Served, State.initial]
  owner := by simp [State.initial]
  positive := by simp [State.initial]
  dequeued := by simp [State.initial]
  destroying := by simp [State.initial]

namespace Inv

variable {s next : State} {order : List TimerId}

theorem served_tracked {timer : TimerId} (h : Served s timer) : Tracked s timer := by
  refine ⟨h.1, ?_, ?_⟩
  · intro hhead
    cases h.2 _ hhead
  · intro hhead
    cases h.2 _ hhead

theorem inFlight_nonneg (h : Inv s order) (timer : TimerId) :
    0 ≤ inFlight timer (s.stack 0) := by
  unfold inFlight
  split
  · next other count rest hstack =>
      have hcount := (h.dequeued other count (by rw [hstack]; rfl)).1
      split <;> omega
  · exact Int.le_refl 0

/-- A timer that is not valid has no handler thread. -/
theorem handler_none (h : Inv s order) {timer : TimerId}
    (hinvalid : (s.timers timer).isValid = false) : s.handlers timer = none := by
  rw [← Option.not_isSome_iff_eq_none, h.served]
  intro hserved
  exact Bool.false_ne_true (hinvalid.symm.trans hserved.1)

/-- The handler thread exists until `timerlib_timer_destroy` has returned. -/
theorem handler_isSome (h : Inv s order) {timer : TimerId}
    (hhead : (s.stack 0).head? = some (.destroy timer .timerlib)) :
    (s.handlers timer).isSome := by
  rw [h.served]
  refine ⟨h.destroying timer _ hhead, ?_⟩
  intro pc hpc
  rw [hhead] at hpc
  cases hpc
  rfl

theorem unlisted (h : Inv s order) {timer : TimerId}
    (hinvalid : (s.timers timer).isValid = false) : timer ∉ order := by
  intro hmem
  exact Bool.false_ne_true (hinvalid.symm.trans (h.listed timer hmem).1)

/-- A step that leaves the list, the flags and the counts of the timers alone
only has to account for the stack, the handlers and the trace. -/
theorem reframe (h : Inv s order) (hlinks : next.links (.php 0) = s.links (.php 0))
    (htimers : ∀ timer, (next.timers timer).isValid = (s.timers timer).isValid ∧
      (next.timers timer).eventCount = (s.timers timer).eventCount ∧
      (next.timers timer).tls = (s.timers timer).tls ∧
      (next.timers timer).vmInterruptPtr = (s.timers timer).vmInterruptPtr)
    (hbelow : ∀ frame ∈ (next.stack 0).tail, ∃ timer, frame = .callback timer)
    (hmutex : (next.tls (.php 0)).mutex = holder (next.stack 0))
    (htracked : ∀ timer, Tracked next timer ↔ Tracked s timer)
    (hserved : ∀ timer, (next.handlers timer).isSome ↔ Served next timer)
    (hbalance : ∀ timer, Tracked s timer →
      delivered timer next.trace + inFlight timer (next.stack 0) -
        handled timer next.trace =
      delivered timer s.trace + inFlight timer (s.stack 0) - handled timer s.trace)
    (hpositive : ∀ timer count, .callback timer count ∈ next.trace → 1 ≤ count)
    (hdequeued : ∀ timer count, (next.stack 0).head? = some (.deliver timer count) →
      1 ≤ count ∧ Tracked next timer)
    (hdestroying : ∀ timer pc, (next.stack 0).head? = some (.destroy timer pc) →
      (s.timers timer).isValid = true) :
    Inv next order := by
  refine ⟨hlinks ▸ h.ring, hbelow, hmutex, ?_, ?_, ?_, ?_, hserved, ?_, hpositive,
    hdequeued, ?_⟩
  · intro timer hmem
    exact (htracked timer).mpr (h.listed timer hmem)
  · intro timer hmem
    rw [(htimers timer).2.1]
    exact h.count_listed timer hmem
  · intro timer ht hmem
    rw [(htimers timer).2.1]
    exact h.count_unlisted timer ((htracked timer).mp ht) hmem
  · intro timer ht
    have hold := h.balance timer ((htracked timer).mp ht)
    have hnew := hbalance timer ((htracked timer).mp ht)
    rw [(htimers timer).2.1]
    omega
  · intro timer hvalid
    rw [(htimers timer).1] at hvalid
    rw [(htimers timer).2.2.1, (htimers timer).2.2.2]
    exact h.owner timer hvalid
  · intro timer pc hhead
    rw [(htimers timer).1]
    exact hdestroying timer pc hhead

/-- The same for a step that does not touch the stack either. -/
theorem frame (h : Inv s order) (hlinks : next.links (.php 0) = s.links (.php 0))
    (htimers : ∀ timer, (next.timers timer).isValid = (s.timers timer).isValid ∧
      (next.timers timer).eventCount = (s.timers timer).eventCount ∧
      (next.timers timer).tls = (s.timers timer).tls ∧
      (next.timers timer).vmInterruptPtr = (s.timers timer).vmInterruptPtr)
    (hmutex : (next.tls (.php 0)).mutex = (s.tls (.php 0)).mutex)
    (hstack : next.stack 0 = s.stack 0)
    (hhandlers : ∀ timer, (next.handlers timer).isSome = (s.handlers timer).isSome)
    (htrace : ∀ timer, handled timer next.trace = handled timer s.trace ∧
      delivered timer next.trace = delivered timer s.trace)
    (hcalls : ∀ timer count, .callback timer count ∈ next.trace →
      .callback timer count ∈ s.trace) :
    Inv next order := by
  have htracked (timer : TimerId) : Tracked next timer ↔ Tracked s timer := by
    simp only [Tracked, hstack, (htimers timer).1]
  apply h.reframe hlinks htimers
  · rw [hstack]
    exact h.below
  · rw [hmutex, hstack]
    exact h.mutex
  · exact htracked
  · intro timer
    rw [hhandlers]
    simp only [Served, hstack, (htimers timer).1]
    exact h.served timer
  · intro timer _
    rw [(htrace timer).1, (htrace timer).2, hstack]
  · intro timer count hmem
    exact h.positive timer count (hcalls timer count hmem)
  · intro timer count hhead
    rw [hstack] at hhead
    rw [htracked]
    exact h.dequeued timer count hhead
  · intro timer pc hhead
    rw [hstack] at hhead
    exact h.destroying timer pc hhead

end Inv

/-- Events that neither count expiries nor deliver them. -/
def Event.neutral : Event → Bool
  | .start _ | .stop _ | .destroyed _ | .warning _ => true
  | .init _ _ | .handle _ _ | .callback _ _ => false

section Steps

variable {s next : State} {order : List TimerId}

theorem Inv.record_neutral (h : Inv s order) {event : Event}
    (hneutral : event.neutral = true) : Inv (s.record event) order := by
  refine h.frame rfl (fun _ => ⟨rfl, rfl, rfl, rfl⟩) rfl rfl (fun _ => rfl) ?_ ?_
  · intro timer
    cases event <;> simp_all [Event.neutral, State.record, handled, delivered]
  · intro timer count hmem
    rcases List.mem_cons.mp hmem with heq | hold
    · subst heq
      simp [Event.neutral] at hneutral
    · exact hold

/-- Writing a timer whose links stay the same does not change any list. -/
theorem links_setTimer {timer : TimerId} {value : ExcimerTimer}
    (hnext : value.pendingNext = (s.timers timer).pendingNext)
    (hprev : value.pendingPrev = (s.timers timer).pendingPrev) (tls : Thread) :
    (s.setTimer timer value).links tls = s.links tls := by
  simp only [State.links, State.setTimer, Links.mk.injEq, and_true]
  constructor <;> funext other <;> by_cases heq : other = timer <;>
    simp [heq, hnext, hprev]

theorem Inv.set_running (h : Inv s order) (timer : TimerId) (running : Bool) :
    Inv (s.setRunning timer running) order := by
  refine h.frame (links_setTimer (by rfl) (by rfl) _) ?_ rfl rfl (fun _ => rfl)
    (fun _ => ⟨rfl, rfl⟩) (fun _ _ hmem => hmem)
  intro other
  by_cases heq : other = timer <;> simp [State.setRunning, State.setTimer, heq]

/-- PHP code runs on top of callbacks only, so nothing of the extension is in
the middle of a step then. -/
theorem Inv.user_stack (h : Inv s order) (hphp : s.runsPhp 0 = true) :
    ∀ frame ∈ s.stack 0, ∃ timer, frame = .callback timer := by
  have hbelow := h.below
  unfold State.runsPhp at hphp
  intro frame hmem
  cases hstack : s.stack 0 with
  | nil => simp [hstack] at hmem
  | cons top rest =>
      rw [hstack] at hmem hbelow hphp
      rcases List.mem_cons.mp hmem with rfl | hrest
      · cases frame <;> simp_all
      · exact hbelow frame hrest

/-- Between two steps of the interrupt loop or of PHP code. -/
def quiet (frames : List Frame) : Prop :=
  ∀ frame, frames.head? = some frame → frame = .drain ∨ ∃ timer, frame = .callback timer

theorem quiet_of_callbacks {frames : List Frame}
    (h : ∀ frame ∈ frames, ∃ timer, frame = .callback timer) : quiet frames :=
  fun frame hhead => Or.inr (h frame (List.mem_of_head? hhead))

theorem quiet_drain (rest : List Frame) : quiet (.drain :: rest) := by
  intro frame hhead
  exact Or.inl (Option.some.inj hhead).symm

theorem quiet.not_destroy {frames : List Frame} (h : quiet frames) (timer : TimerId)
    (pc : DestroyPc) : frames.head? ≠ some (.destroy timer pc) := by
  intro hhead
  rcases h _ hhead with hdrain | ⟨other, hcallback⟩
  · cases hdrain
  · cases hcallback

theorem quiet.not_deliver {frames : List Frame} (h : quiet frames) (timer : TimerId)
    (count : Int) : frames.head? ≠ some (.deliver timer count) := by
  intro hhead
  rcases h _ hhead with hdrain | ⟨other, hcallback⟩
  · cases hdrain
  · cases hcallback

theorem quiet.holder_eq {frames : List Frame} (h : quiet frames) :
    holder frames = none := by
  cases frames with
  | nil => rfl
  | cons top rest =>
      rcases h top rfl with rfl | ⟨timer, rfl⟩ <;> rfl

theorem quiet.inFlight_eq {frames : List Frame} (h : quiet frames) (timer : TimerId) :
    inFlight timer frames = 0 := by
  cases frames with
  | nil => rfl
  | cons top rest =>
      rcases h top rfl with rfl | ⟨timer, rfl⟩ <;> rfl

theorem quiet.tracked_iff (h : quiet (s.stack 0)) (timer : TimerId) :
    Tracked s timer ↔ (s.timers timer).isValid = true := by
  simp [Tracked, h.not_destroy]

theorem quiet.served_iff (h : quiet (s.stack 0)) (timer : TimerId) :
    Served s timer ↔ (s.timers timer).isValid = true := by
  simp [Served, h.not_destroy]

/-- Moving between two quiet stacks, with whatever happens to the flag. -/
theorem Inv.quiet_move (h : Inv s order) {flag : Nat → Bool} {frames : List Frame}
    (hold : quiet (s.stack 0)) (hnew : quiet frames)
    (hbelow : ∀ frame ∈ frames.tail, ∃ timer, frame = .callback timer) :
    Inv ({ s with vmInterrupt := flag }.setStack 0 frames) order := by
  set next := { s with vmInterrupt := flag }.setStack 0 frames with hnext
  have hstack : next.stack 0 = frames := by simp [hnext, State.setStack]
  have hquiet : quiet (next.stack 0) := hstack ▸ hnew
  refine h.reframe rfl (fun _ => ⟨rfl, rfl, rfl, rfl⟩) ?_ ?_ ?_ ?_ ?_
    h.positive ?_ ?_
  · rw [hstack]
    exact hbelow
  · rw [hquiet.holder_eq, ← hold.holder_eq]
    exact h.mutex
  · intro timer
    rw [hquiet.tracked_iff, hold.tracked_iff]
    rfl
  · intro timer
    rw [hquiet.served_iff]
    exact (h.served timer).trans (hold.served_iff timer)
  · intro timer _
    rw [hquiet.inFlight_eq, hold.inFlight_eq]
    rfl
  · intro timer count hhead
    exact absurd hhead (hquiet.not_deliver timer count)
  · intro timer pc hhead
    exact absurd hhead (hquiet.not_destroy timer pc)

theorem store_inv (h : Inv s order) {timer : TimerId}
    (hstep : step .nonZts s (.store timer) = some next) : Inv next order := by
  cases step_moves hstep with
  | store hhandler =>
      refine h.frame rfl (fun _ => ⟨rfl, rfl, rfl, rfl⟩) rfl rfl ?_
        (fun _ => ⟨rfl, rfl⟩) (fun _ _ hmem => hmem)
      intro other
      by_cases heq : other = timer
      · simp [heq, hhandler]
      · simp [heq]

theorem raise_inv (h : Inv s order) {php : Nat}
    (hstep : step .nonZts s (.raise php) = some next) : Inv next order := by
  cases hstep
  exact h.frame rfl (fun _ => ⟨rfl, rfl, rfl, rfl⟩) rfl rfl (fun _ => rfl)
    (fun _ => ⟨rfl, rfl⟩) (fun _ _ hmem => hmem)

theorem timerStart_inv (h : Inv s order) (timer : TimerId)
    (period initial : Timespec) (ok : Bool) :
    Inv (timerStart s timer period initial ok) order := by
  unfold timerStart
  repeat' split
  · exact h.record_neutral rfl
  · exact h.record_neutral rfl
  · exact (h.set_running timer true).record_neutral rfl
  · exact h

theorem timerStop_inv (h : Inv s order) (timer : TimerId) (ok : Bool) :
    Inv (timerStop s timer ok) order := by
  unfold timerStop
  repeat' split
  · exact h.record_neutral rfl
  · exact (h.set_running timer false).record_neutral rfl
  · exact h
  · exact h.record_neutral rfl

theorem interrupt_inv (h : Inv s order) (hphp : s.runsPhp 0 = true) {flag : Nat → Bool} :
    Inv ({ s with vmInterrupt := flag }.setStack 0 (.drain :: s.stack 0)) order := by
  have hcallbacks := h.user_stack hphp
  exact h.quiet_move (quiet_of_callbacks hcallbacks) (quiet_drain _) hcallbacks

theorem ret_inv (h : Inv s order) {timer : TimerId} {rest : List Frame}
    (hstack : s.stack 0 = .callback timer :: rest) :
    Inv (s.setStack 0 (.drain :: rest)) order := by
  have hold : quiet (s.stack 0) := by
    intro frame hhead
    rw [hstack] at hhead
    exact Or.inr ⟨timer, (Option.some.inj hhead).symm⟩
  have hbelow := h.below
  rw [hstack] at hbelow
  exact h.quiet_move hold (quiet_drain rest) hbelow

theorem call_inv (h : Inv s order) {timer : TimerId} {count : Int} {rest : List Frame}
    (hstack : s.stack 0 = .deliver timer count :: rest) :
    Inv ((s.setStack 0 (.callback timer :: rest)).record (.callback timer count)) order := by
  have hbelow := h.below
  have hmutex := h.mutex
  have hdequeued := h.dequeued timer count (by rw [hstack]; rfl)
  rw [hstack] at hbelow hmutex
  have htracked (other : TimerId) :
      Tracked s other ↔ (s.timers other).isValid = true := by
    simp [Tracked, hstack]
  refine h.reframe rfl (fun _ => ⟨rfl, rfl, rfl, rfl⟩) ?_ ?_ ?_ ?_ ?_ ?_ ?_ ?_
  · simpa [State.setStack, State.record] using hbelow
  · simpa [State.setStack, State.record, holder] using hmutex
  · intro other
    rw [htracked]
    simp [Tracked, State.setStack, State.record]
  · intro other
    have hserved := h.served other
    simpa [Served, hstack, State.setStack, State.record] using hserved
  · intro other _
    by_cases heq : timer = other
    · simp [State.setStack, State.record, delivered, handled, inFlight, hstack, heq]
    · simp [State.setStack, State.record, delivered, handled, inFlight, hstack, heq]
  · intro other amount hmem
    rcases List.mem_cons.mp hmem with heq | hold
    · cases heq
      exact hdequeued.1
    · exact h.positive other amount hold
  · simp [State.setStack, State.record]
  · simp [State.setStack, State.record]

/-- A step that rewires the pending list and writes event counts, and leaves
everything else of the timers alone. -/
structure Relinked (s next : State) (order : List TimerId) : Prop where
  ring : (next.links (.php 0)).Represents order
  mutex : (next.tls (.php 0)).mutex = (s.tls (.php 0)).mutex
  flag : next.vmInterrupt = s.vmInterrupt
  timers : ∀ timer, (next.timers timer).isValid = (s.timers timer).isValid ∧
    (next.timers timer).isRunning = (s.timers timer).isRunning ∧
    (next.timers timer).tls = (s.timers timer).tls ∧
    (next.timers timer).vmInterruptPtr = (s.timers timer).vmInterruptPtr

theorem Relinked.owner {after : List TimerId} (hlink : Relinked s next after) (h : Inv s order)
    (timer : TimerId) (hvalid : (next.timers timer).isValid = true) :
    (next.timers timer).tls = some (.php 0) ∧ (next.timers timer).vmInterruptPtr = some 0 := by
  obtain ⟨hsame, -, htls, hptr⟩ := hlink.timers timer
  rw [htls, hptr]
  exact h.owner timer (hsame ▸ hvalid)

/-- The effect of the critical section of `excimer_timer_handle`. -/
theorem step_handle (h : Inv s order) {timer : TimerId} {overrunCount : Int}
    (hstep : step .nonZts s (.handle timer overrunCount) = some next) :
    Relinked s next (enqueued order timer) ∧ 0 ≤ overrunCount ∧
      (∀ other, (next.timers other).eventCount =
        if other = timer then (s.timers timer).eventCount + (overrunCount + 1)
        else (s.timers other).eventCount) ∧
      next.stack = s.stack ∧ next.trace = .handle timer overrunCount :: s.trace ∧
      ∃ number, s.handlers timer = some ⟨number, false⟩ ∧
        next.handlers = Function.update s.handlers timer (some ⟨number, true⟩) := by
  cases step_moves hstep with
  | @handle _ _ number after hhandler hrange henqueue =>
      have hvalue : toInt (overrunCount + 1) = overrunCount + 1 :=
        toInt_of_range (by omega) hrange.2
      have htls : Build.nonZts.tls (.handler number) = .php 0 := rfl
      simp only [handleEnqueue, htls, hvalue] at henqueue
      obtain ⟨_, henqueue⟩ := Option.ite_none_right_eq_some.mp henqueue
      set counted := s.setTimer timer { s.timers timer with
        eventCount := (s.timers timer).eventCount + (overrunCount + 1) } with hcounted
      have hring : (counted.links (.php 0)).Represents order := by
        rw [hcounted, links_setTimer (by rfl) (by rfl)]
        exact h.ring
      obtain ⟨links, hlinks, hrep⟩ := listEnqueue_spec hring timer
      rw [hlinks] at henqueue
      cases henqueue
      refine ⟨⟨?_, ?_, rfl, ?_⟩, hrange.1, ?_, rfl, rfl, number, hhandler, rfl⟩
      · change ((counted.withLinks (.php 0) links).links (.php 0)).Represents _
        rw [State.links_withLinks]
        exact hrep
      · simp [State.withLinks, hcounted, State.setTimer]
      · intro other
        by_cases heq : other = timer <;>
          simp [State.withLinks, hcounted, State.setTimer, heq]
      · intro other
        by_cases heq : other = timer <;>
          simp [State.withLinks, hcounted, State.setTimer, heq]

theorem handle_inv (h : Inv s order) {timer : TimerId} {overrunCount : Int}
    (hstep : step .nonZts s (.handle timer overrunCount) = some next) :
    Inv next (enqueued order timer) := by
  obtain ⟨hlink, hlow, hcount, hstack, htrace, number, hhandler, hhandlers⟩ :=
    step_handle h hstep
  have hserved := (h.served timer).mp (by simp [hhandler])
  have htracked (other : TimerId) : Tracked next other ↔ Tracked s other := by
    simp only [Tracked, hstack, (hlink.timers other).1]
  have hnonneg : 0 ≤ (s.timers timer).eventCount := by
    by_cases hmem : timer ∈ order
    · have := h.count_listed timer hmem
      omega
    · rw [h.count_unlisted timer (Inv.served_tracked hserved) hmem]
  refine ⟨hlink.ring, hstack ▸ h.below, hlink.mutex.trans (hstack ▸ h.mutex), ?_, ?_, ?_,
    ?_, ?_, hlink.owner h, ?_, ?_, ?_⟩
  · intro other hmem
    rw [htracked]
    rcases mem_enqueued.mp hmem with hold | rfl
    · exact h.listed other hold
    · exact Inv.served_tracked hserved
  · intro other hmem
    rw [hcount]
    split
    · omega
    · next hne =>
        exact h.count_listed other ((mem_enqueued.mp hmem).resolve_right hne)
  · intro other ht hmem
    rw [mem_enqueued, not_or] at hmem
    rw [hcount, if_neg hmem.2]
    exact h.count_unlisted other ((htracked other).mp ht) hmem.1
  · intro other ht
    have hbalance := h.balance other ((htracked other).mp ht)
    rw [htrace, hstack, hcount]
    by_cases heq : other = timer
    · subst heq
      simp only [delivered, handled, if_true]
      omega
    · simp only [delivered, handled, if_neg heq, if_neg (Ne.symm heq)]
      exact hbalance
  · intro other
    have hold := h.served other
    simp only [Served, hstack, (hlink.timers other).1] at hold ⊢
    rw [← hold, hhandlers]
    by_cases heq : other = timer
    · simp [heq, hhandler]
    · simp [heq]
  · intro other count hmem
    rw [htrace] at hmem
    rcases List.mem_cons.mp hmem with heq | hold
    · cases heq
    · exact h.positive other count hold
  · intro other count hhead
    rw [hstack] at hhead
    rw [htracked]
    exact h.dequeued other count hhead
  · intro other pc hhead
    rw [hstack] at hhead
    rw [(hlink.timers other).1]
    exact h.destroying other pc hhead

theorem withLinks_links (s : State) (tls : Thread) : s.withLinks tls (s.links tls) = s := by
  simp [State.withLinks, State.links]

theorem pendingDequeue_nil {build : Build} {thread : Thread}
    (hring : (s.links (build.tls thread)).Represents [])
    (hfree : (s.tls (build.tls thread)).mutex = none) :
    pendingDequeue build thread s = some (s, none) := by
  simp only [pendingDequeue, hfree, if_true, listDequeue_nil hring, Option.map_some,
    withLinks_links]

/-- A dequeue takes the first timer off the list together with its whole count. -/
theorem pendingDequeue_cons {build : Build} {thread : Thread} {timer : TimerId}
    {others : List TimerId} (hring : (s.links (build.tls thread)).Represents (timer :: others))
    (hfree : (s.tls (build.tls thread)).mutex = none) :
    ∃ next, pendingDequeue build thread s = some (next, some (timer, (s.timers timer).eventCount)) ∧
      (next.links (build.tls thread)).Represents others ∧
      (next.tls (build.tls thread)).mutex = none ∧
      next.vmInterrupt = s.vmInterrupt ∧ next.stack = s.stack ∧
      next.handlers = s.handlers ∧ next.trace = s.trace ∧
      ∀ other, (next.timers other).isValid = (s.timers other).isValid ∧
        (next.timers other).isRunning = (s.timers other).isRunning ∧
        (next.timers other).tls = (s.timers other).tls ∧
        (next.timers other).vmInterruptPtr = (s.timers other).vmInterruptPtr ∧
        (next.timers other).eventCount =
          if other = timer then 0 else (s.timers other).eventCount := by
  obtain ⟨links, hlinks, hrep⟩ := listDequeue_cons hring
  simp only [pendingDequeue, hfree, if_true, hlinks, Option.map_some]
  refine ⟨_, rfl, ?_, ?_, rfl, rfl, rfl, rfl, ?_⟩
  · rw [links_setTimer (by rfl) (by rfl), State.links_withLinks]
    exact hrep
  · simpa [State.withLinks, State.setTimer] using hfree
  · intro other
    by_cases heq : other = timer <;> simp [State.withLinks, State.setTimer, heq]

/-- The effect of one dequeue of the interrupt loop: the loop ends, or the
first timer is taken off the list together with its whole count. -/
theorem step_dequeue (h : Inv s order)
    (hstep : phpStep .nonZts 0 s .dequeue = some next) :
    ∃ rest, s.stack 0 = .drain :: rest ∧
      ((order = [] ∧ next = s.setStack 0 rest) ∨
        ∃ timer others, order = timer :: others ∧ Relinked s next others ∧
          (∀ other, (next.timers other).eventCount =
            if other = timer then 0 else (s.timers other).eventCount) ∧
          next.stack 0 = .deliver timer (s.timers timer).eventCount :: rest ∧
          next.handlers = s.handlers ∧ next.trace = s.trace) := by
  cases phpStep_moves hstep with
  | @dequeue rest result hstack hdequeue =>
      refine ⟨rest, hstack, ?_⟩
      have hfree : (s.tls (Build.nonZts.tls (.php 0))).mutex = none := by
        have hmutex := h.mutex
        rw [hstack] at hmutex
        exact hmutex
      cases order with
      | nil =>
          rw [pendingDequeue_nil h.ring hfree] at hdequeue
          cases hdequeue
          exact Or.inl ⟨rfl, rfl⟩
      | cons timer others =>
          obtain ⟨after, hafter, hring, hmutex, hflag, _, hhandlers, htrace, htimers⟩ :=
            pendingDequeue_cons h.ring hfree
          rw [hafter] at hdequeue
          cases hdequeue
          refine Or.inr ⟨timer, others, rfl, ⟨hring, hmutex.trans hfree.symm, hflag, ?_⟩, ?_, ?_,
            hhandlers, htrace⟩
          · intro other
            obtain ⟨hvalid, hrunning, htls, hptr, _⟩ := htimers other
            exact ⟨hvalid, hrunning, htls, hptr⟩
          · exact fun other => (htimers other).2.2.2.2
          · simp [State.setStack]

theorem dequeue_inv (h : Inv s order)
    (hstep : phpStep .nonZts 0 s .dequeue = some next) :
    ∃ after, Inv next after := by
  obtain ⟨rest, hstack, ⟨hempty, hnext⟩ |
    ⟨timer, others, horder, hlink, hcount, hstack', hhandlers, htrace⟩⟩ := step_dequeue h hstep
  · have hbelow := h.below
    rw [hstack] at hbelow
    refine ⟨order, ?_⟩
    subst hnext
    exact h.quiet_move (hstack ▸ quiet_drain rest) (quiet_of_callbacks hbelow)
      (fun frame hmem => hbelow frame (List.mem_of_mem_tail hmem))
  · subst horder
    refine ⟨others, ?_⟩
    have hnodup := List.nodup_cons.mp h.ring.nodup
    have hbefore (other : TimerId) :
        Tracked s other ↔ (s.timers other).isValid = true := by
      simp [Tracked, hstack]
    have htracked (other : TimerId) : Tracked next other ↔ Tracked s other := by
      rw [hbefore]
      simp [Tracked, hstack', (hlink.timers other).1]
    refine ⟨hlink.ring, ?_, ?_, ?_, ?_, ?_, ?_, ?_, hlink.owner h, htrace ▸ h.positive, ?_, ?_⟩
    · have hbelow := h.below
      rw [hstack] at hbelow
      rw [hstack']
      exact hbelow
    · rw [hlink.mutex, h.mutex, hstack, hstack']
      rfl
    · intro other hmem
      exact (htracked other).mpr (h.listed other (List.mem_cons_of_mem timer hmem))
    · intro other hmem
      have hne : other ≠ timer := fun heq => hnodup.1 (heq ▸ hmem)
      rw [hcount, if_neg hne]
      exact h.count_listed other (List.mem_cons_of_mem timer hmem)
    · intro other ht hmem
      rw [hcount]
      split
      · rfl
      · next hne =>
          refine h.count_unlisted other ((htracked other).mp ht) ?_
          simp [hne, hmem]
    · intro other ht
      have hbalance := h.balance other ((htracked other).mp ht)
      rw [hstack] at hbalance
      rw [htrace, hstack', hcount]
      by_cases heq : other = timer
      · subst heq
        simp only [inFlight, if_true] at hbalance ⊢
        omega
      · simp only [inFlight, if_neg (Ne.symm heq), if_neg heq] at hbalance ⊢
        exact hbalance
    · intro other
      have hold := h.served other
      simp only [Served, hstack, hstack', hhandlers, (hlink.timers other).1] at hold ⊢
      simpa using hold
    · intro other count hhead
      rw [hstack'] at hhead
      cases hhead
      exact ⟨h.count_listed timer (List.mem_cons_self ..),
        (htracked timer).mpr (h.listed timer (List.mem_cons_self ..))⟩
    · intro other pc hhead
      rw [hstack'] at hhead
      cases hhead

theorem timerDestroy_inv (h : Inv s order) (hphp : s.runsPhp 0 = true)
    (timer : TimerId) : Inv (timerDestroy .nonZts 0 s timer) order := by
  unfold timerDestroy
  split
  · exact h.record_neutral rfl
  · next hvalid =>
      have htrue : (s.timers timer).isValid = true := by simpa using hvalid
      have htls : Build.nonZts.tls (.php 0) = .php 0 := rfl
      rw [if_neg (by simp [htls, (h.owner timer htrue).1])]
      have hrun := h.set_running timer false
      have hcallbacks := h.user_stack hphp
      have hold : quiet ((s.setRunning timer false).stack 0) :=
        quiet_of_callbacks hcallbacks
      refine hrun.reframe rfl (fun _ => ⟨rfl, rfl, rfl, rfl⟩) ?_ ?_ ?_ ?_ ?_
        hrun.positive ?_ ?_
      · simpa [State.setStack, State.setRunning, State.setTimer] using hcallbacks
      · have hmutex := hrun.mutex
        rw [hold.holder_eq] at hmutex
        simpa [State.setStack, holder] using hmutex
      · intro other
        rw [hold.tracked_iff]
        simp [Tracked, State.setStack]
      · intro other
        refine (hrun.served other).trans ((hold.served_iff other).trans ?_)
        simp only [Served, State.setStack, Function.update_self, List.head?_cons,
          Option.some.injEq, Frame.destroy.injEq]
        constructor
        · intro hother
          exact ⟨hother, fun pc hpc => hpc.2.symm⟩
        · exact And.left
      · intro other _
        rw [hold.inFlight_eq]
        simp [State.setStack, inFlight, State.setRunning, State.setTimer]
      · simp [State.setStack]
      · intro other pc hhead
        have heq : timer = other := by
          simp [State.setStack] at hhead
          exact hhead.1
        subst heq
        simpa [State.setRunning, State.setTimer] using htrue

/-- The steps of `excimer_timer_destroy` before the removal and between the
removal and the last assignments only move its program counter. -/
theorem Inv.destroy_move (h : Inv s order) {timer : TimerId} {pc : DestroyPc}
    (pc' : DestroyPc) {rest : List Frame} (hstack : s.stack 0 = .destroy timer pc :: rest)
    (hstack' : next.stack 0 = .destroy timer pc' :: rest)
    (htimers : next.timers = s.timers)
    (hhead : (next.tls (.php 0)).pendingHead = (s.tls (.php 0)).pendingHead)
    (hmutex : (next.tls (.php 0)).mutex = holder (next.stack 0))
    (hpast : (pc' = .unlock ∨ pc' = .finish) ↔ (pc = .unlock ∨ pc = .finish))
    (hhandlers : ∀ other, (next.handlers other).isSome ↔
      (s.handlers other).isSome ∧ (other = timer → pc' = .timerlib))
    (hleft : pc' = .timerlib → pc = .timerlib) (htrace : next.trace = s.trace) :
    Inv next order := by
  have hlinks : next.links (.php 0) = s.links (.php 0) := by
    simp only [State.links, htimers, hhead]
  have hbelow := h.below
  rw [hstack] at hbelow
  refine h.reframe hlinks (fun _ => by simp [htimers]) ?_ hmutex ?_ ?_ ?_ ?_ ?_ ?_
  · rw [hstack']
    exact hbelow
  · intro other
    simp only [Tracked, htimers, hstack, hstack', List.head?_cons, ne_eq,
      Option.some.injEq, Frame.destroy.injEq]
    -- Only whether the removal is over counts.
    simp only [← not_or, ← and_or_left, hpast]
  · intro other
    rw [hhandlers, h.served]
    simp only [Served, htimers, hstack, hstack', List.head?_cons, Option.some.injEq,
      Frame.destroy.injEq]
    constructor
    · rintro ⟨⟨hvalid, _⟩, hpc⟩
      exact ⟨hvalid, fun pc'' heq => heq.2 ▸ hpc heq.1.symm⟩
    · rintro ⟨hvalid, hpc⟩
      refine ⟨⟨hvalid, ?_⟩, fun heq => hpc pc' ⟨heq.symm, rfl⟩⟩
      rintro pc'' ⟨heq, rfl⟩
      exact hleft (hpc pc' ⟨heq, rfl⟩)
  · intro other _
    rw [hstack, hstack', htrace]
    rfl
  · rw [htrace]
    exact h.positive
  · intro other count hdeliver
    rw [hstack'] at hdeliver
    cases hdeliver
  · intro other pc'' hdestroy
    rw [hstack'] at hdestroy
    cases hdestroy
    exact h.destroying timer pc (by rw [hstack]; rfl)

theorem destroy_join_inv (h : Inv s order) {timer : TimerId} {rest : List Frame}
    (hstack : s.stack 0 = .destroy timer .timerlib :: rest) {active : UInt64} :
    Inv (State.setStack { s with
      handlers := Function.update s.handlers timer none
      tls := Function.update s.tls (.php 0) { s.tls (.php 0) with timersActive := active } }
      0 (.destroy timer .lock :: rest)) order := by
  have hmutex := h.mutex
  rw [hstack] at hmutex
  refine h.destroy_move .lock hstack (by simp [State.setStack]) rfl
    (by simp [State.setStack]) ?_ (by simp) ?_ (by simp) rfl
  · simpa [State.setStack, holder] using hmutex
  · intro other
    by_cases heq : other = timer <;> simp [State.setStack, heq]

/-- The steps of `excimer_timer_destroy` that lock or unlock the mutex. -/
theorem destroy_mutex_inv (h : Inv s order) {timer : TimerId} {rest : List Frame}
    {pc pc' : DestroyPc} {mutex : Option Thread}
    (hstack : s.stack 0 = .destroy timer pc :: rest)
    (hmutex : mutex = holder (.destroy timer pc' :: rest))
    (hpast : (pc' = .unlock ∨ pc' = .finish) ↔ (pc = .unlock ∨ pc = .finish))
    (hpc : pc ≠ .timerlib) (hpc' : pc' ≠ .timerlib) :
    Inv ((s.setMutex (.php 0) mutex).setStack 0 (.destroy timer pc' :: rest)) order := by
  have hserved := h.served timer
  simp [Served, hstack, hpc] at hserved
  refine h.destroy_move pc' hstack (by simp [State.setStack]) rfl
    (by simp [State.setStack, State.setMutex])
    (by simp [State.setStack, State.setMutex, hmutex]) hpast ?_ (fun heq => absurd heq hpc') rfl
  intro other
  by_cases heq : other = timer <;> simp [State.setStack, State.setMutex, heq, hserved]

/-- The effect of the removal: the timer leaves the list, nothing else does. -/
theorem remove_relinked (h : Inv s order) {timer : TimerId} {links : Links TimerId}
    (hremove : listRemove (s.links (.php 0)) timer = some links) (frames : List Frame) :
    Relinked s ((s.withLinks (.php 0) links).setStack 0 frames) (order.erase timer) := by
  obtain ⟨found, hfound, hrep⟩ := listRemove_spec h.ring timer
  obtain rfl : links = found := Option.some.inj (hremove.symm.trans hfound)
  refine ⟨?_, ?_, rfl, fun _ => ⟨rfl, rfl, rfl, rfl⟩⟩
  · change ((s.withLinks (.php 0) links).links (.php 0)).Represents _
    rw [State.links_withLinks]
    exact hrep
  · simp [State.withLinks, State.setStack]

theorem destroy_remove_inv (h : Inv s order) {timer : TimerId} {rest : List Frame}
    {links : Links TimerId} (hstack : s.stack 0 = .destroy timer .remove :: rest)
    (hremove : listRemove (s.links (.php 0)) timer = some links) :
    Inv ((s.withLinks (.php 0) links).setStack 0 (.destroy timer .unlock :: rest))
      (order.erase timer) := by
  have hlink := remove_relinked h hremove (.destroy timer .unlock :: rest)
  set next := (s.withLinks (.php 0) links).setStack 0 (.destroy timer .unlock :: rest) with hnext
  have hcount (other : TimerId) :
      (next.timers other).eventCount = (s.timers other).eventCount := rfl
  have hstack' : next.stack 0 = .destroy timer .unlock :: rest := by
    simp [hnext, State.setStack]
  have hhandlers : next.handlers = s.handlers := rfl
  have htrace : next.trace = s.trace := rfl
  have hmem (other : TimerId) : other ∈ order.erase timer ↔ other ≠ timer ∧ other ∈ order :=
    h.ring.nodup.mem_erase_iff
  have hbefore (other : TimerId) :
      Tracked s other ↔ (s.timers other).isValid = true := by
    simp [Tracked, hstack]
  have htracked (other : TimerId) :
      Tracked next other ↔ Tracked s other ∧ other ≠ timer := by
    rw [hbefore]
    simp [Tracked, hstack', (hlink.timers other).1, ne_comm]
  have hbelow := h.below
  have hmutex := h.mutex
  rw [hstack] at hbelow hmutex
  refine ⟨hlink.ring, ?_, ?_, ?_, ?_, ?_, ?_, ?_, hlink.owner h, htrace ▸ h.positive, ?_, ?_⟩
  · rw [hstack']
    exact hbelow
  · rw [hlink.mutex, hstack', hmutex]
    rfl
  · intro other hin
    rw [htracked]
    exact ⟨h.listed other ((hmem other).mp hin).2, ((hmem other).mp hin).1⟩
  · intro other hin
    rw [hcount]
    exact h.count_listed other ((hmem other).mp hin).2
  · intro other ht hout
    obtain ⟨hold, hne⟩ := (htracked other).mp ht
    rw [hcount]
    exact h.count_unlisted other hold fun hin => hout ((hmem other).mpr ⟨hne, hin⟩)
  · intro other ht
    have hbalance := h.balance other ((htracked other).mp ht).1
    rw [hstack] at hbalance
    rw [htrace, hstack', hcount]
    exact hbalance
  · intro other
    have hold := h.served other
    simp only [Served, hstack, hstack', hhandlers, (hlink.timers other).1,
      List.head?_cons, Option.some.injEq, Frame.destroy.injEq] at hold ⊢
    rw [hold]
    constructor
    · rintro ⟨hvalid, hpc⟩
      refine ⟨hvalid, fun pc heq => ?_⟩
      cases hpc .remove ⟨heq.1, rfl⟩
    · rintro ⟨hvalid, hpc⟩
      refine ⟨hvalid, fun pc heq => ?_⟩
      cases hpc .unlock ⟨heq.1, rfl⟩
  · intro other count hdeliver
    rw [hstack'] at hdeliver
    cases hdeliver
  · intro other pc hdestroy
    rw [hstack'] at hdestroy
    cases hdestroy
    rw [(hlink.timers timer).1]
    exact h.destroying timer .remove (by rw [hstack]; rfl)

theorem destroy_finish_inv (h : Inv s order) {timer : TimerId} {rest : List Frame}
    (hstack : s.stack 0 = .destroy timer .finish :: rest) :
    Inv (((s.setTimer timer { s.timers timer with isValid := false, tls := none }).setStack 0
      rest).record (.destroyed timer)) order := by
  have hbelow := h.below
  have hmutex := h.mutex
  rw [hstack] at hbelow hmutex
  set popped := (s.setTimer timer { s.timers timer with isValid := false, tls := none }).setStack
    0 rest with hpopped
  suffices hinv : Inv popped order from hinv.record_neutral rfl
  have hstack' : popped.stack 0 = rest := by simp [hpopped, State.setStack]
  have hquiet : quiet (popped.stack 0) := hstack' ▸ quiet_of_callbacks hbelow
  have hvalid (other : TimerId) : (popped.timers other).isValid =
      if other = timer then false else (s.timers other).isValid := by
    by_cases heq : other = timer <;> simp [hpopped, State.setStack, State.setTimer, heq]
  have hcount (other : TimerId) :
      (popped.timers other).eventCount = (s.timers other).eventCount := by
    by_cases heq : other = timer <;> simp [hpopped, State.setStack, State.setTimer, heq]
  have htracked (other : TimerId) :
      Tracked popped other ↔ Tracked s other := by
    rw [hquiet.tracked_iff, hvalid]
    by_cases heq : other = timer
    · simp [heq, Tracked, hstack]
    · simp [heq, Tracked, hstack, Ne.symm heq]
  refine ⟨?_, ?_, ?_, ?_, ?_, ?_, ?_, ?_, ?_, h.positive, ?_, ?_⟩
  · have hlinks : popped.links (.php 0) = s.links (.php 0) := by
      change (s.setTimer timer _).links (.php 0) = _
      exact links_setTimer (by rfl) (by rfl) _
    rw [hlinks]
    exact h.ring
  · rw [hstack']
    exact fun frame hin => hbelow frame (List.mem_of_mem_tail hin)
  · rw [hquiet.holder_eq]
    exact hmutex
  · exact fun other hin => (htracked other).mpr (h.listed other hin)
  · intro other hin
    rw [hcount]
    exact h.count_listed other hin
  · intro other ht hout
    rw [hcount]
    exact h.count_unlisted other ((htracked other).mp ht) hout
  · intro other ht
    have hbalance := h.balance other ((htracked other).mp ht)
    rw [hstack] at hbalance
    rw [hquiet.inFlight_eq, hcount]
    exact hbalance
  · intro other
    have hold := h.served other
    rw [hquiet.served_iff, hvalid]
    refine hold.trans ?_
    by_cases heq : other = timer
    · simp [heq, Served, hstack]
    · simp [heq, Served, hstack, Ne.symm heq]
  · intro other hother
    rw [hvalid] at hother
    split at hother
    · cases hother
    · next hne =>
        have hsame : popped.timers other = s.timers other := by
          simp [hpopped, State.setStack, State.setTimer, hne]
        rw [hsame]
        exact h.owner other hother
  · exact fun other count hhead => absurd hhead (hquiet.not_deliver other count)
  · exact fun other pc hhead => absurd hhead (hquiet.not_destroy other pc)

/-- Clearing the memory of a timer that is not on the list does not break the
list. -/
theorem timerInit_links (hring : (s.links (.php 0)).Represents order) {timer : TimerId}
    (hout : timer ∉ order) (ok : Bool) :
    (timerInit .nonZts 0 s timer ok).links (.php 0) = s.links (.php 0) := by
  set next := timerInit .nonZts 0 s timer ok with hnext
  have hother (other : TimerId) (hne : other ≠ timer) : next.timers other = s.timers other := by
    cases ok <;> simp [hnext, timerInit, State.setTimer, State.record, hne]
  have hself : (next.timers timer).pendingNext = none ∧ (next.timers timer).pendingPrev = none := by
    cases ok <;> simp [hnext, timerInit, State.setTimer]
  have hhead : (next.tls (.php 0)).pendingHead = (s.tls (.php 0)).pendingHead := by
    cases ok <;> simp [hnext, timerInit, State.setTimer, State.record, Build.nonZts]
  simp only [State.links, hhead, Links.mk.injEq, and_true]
  constructor <;> funext other <;> by_cases heq : other = timer
  · rw [heq, hself.1]
    exact (hring.next_outside timer hout).symm
  · rw [hother other heq]
  · rw [heq, hself.2]
    exact (hring.prev_outside timer hout).symm
  · rw [hother other heq]

/-- A timer is initialised while it is not valid, and then it is not on the
list. -/
theorem timerInit_inv (h : Inv s order) (hphp : s.runsPhp 0 = true) {timer : TimerId}
    (hinvalid : (s.timers timer).isValid = false) (ok : Bool) :
    Inv (timerInit .nonZts 0 s timer ok) order := by
  have hold : quiet (s.stack 0) := quiet_of_callbacks (h.user_stack hphp)
  have hout := h.unlisted hinvalid
  have hnone := h.handler_none hinvalid
  have hlinks := timerInit_links h.ring hout ok
  set next := timerInit .nonZts 0 s timer ok with hnext
  have hsame (other : TimerId) (hne : other ≠ timer) :
      next.timers other = s.timers other ∧ next.handlers other = s.handlers other := by
    cases ok <;> simp [hnext, timerInit, State.setTimer, State.record, hne]
  have hself : next.timers timer =
      { isValid := ok, vmInterruptPtr := some 0, tls := some (.php 0) } := by
    cases ok <;> simp [hnext, timerInit, State.setTimer, Build.nonZts]
  have hstack : next.stack = s.stack := by
    cases ok <;> rfl
  have htrace : next.trace = .init timer ok :: s.trace := by
    cases ok <;> rfl
  have hmutex : (next.tls (.php 0)).mutex = (s.tls (.php 0)).mutex := by
    cases ok <;> simp [hnext, timerInit, State.setTimer, State.record, Build.nonZts]
  have hquiet : quiet (next.stack 0) := hstack ▸ hold
  refine ⟨hlinks ▸ h.ring, hstack ▸ h.below, hmutex.trans (hstack ▸ h.mutex), ?_, ?_, ?_, ?_,
    ?_, ?_, ?_, ?_, ?_⟩
  · intro other hin
    rw [hquiet.tracked_iff, (hsame other (ne_of_mem_of_not_mem hin hout)).1]
    exact (h.listed other hin).1
  · intro other hin
    rw [(hsame other (ne_of_mem_of_not_mem hin hout)).1]
    exact h.count_listed other hin
  · intro other ht hmem
    rw [hquiet.tracked_iff] at ht
    by_cases heq : other = timer
    · rw [heq, hself]
    · rw [(hsame other heq).1] at ht ⊢
      exact h.count_unlisted other ((hold.tracked_iff other).mpr ht) hmem
  · intro other ht
    rw [hquiet.tracked_iff] at ht
    rw [hquiet.inFlight_eq, htrace]
    by_cases heq : other = timer
    · simp [heq, hself, delivered, handled]
    · rw [(hsame other heq).1] at ht ⊢
      have hbalance := h.balance other ((hold.tracked_iff other).mpr ht)
      rw [hold.inFlight_eq] at hbalance
      simpa [delivered, handled, Ne.symm heq] using hbalance
  · intro other
    rw [hquiet.served_iff]
    by_cases heq : other = timer
    · subst heq
      rw [hself]
      cases ok <;> simp [hnext, timerInit, State.setTimer, State.record, hnone]
    · rw [(hsame other heq).1, (hsame other heq).2]
      exact (h.served other).trans (hold.served_iff other)
  · intro other hvalid
    by_cases heq : other = timer
    · rw [heq, hself]
      exact ⟨rfl, rfl⟩
    · rw [(hsame other heq).1] at hvalid ⊢
      exact h.owner other hvalid
  · intro other count hmem
    rw [htrace] at hmem
    rcases List.mem_cons.mp hmem with heq | hmem
    · cases heq
    · exact h.positive other count hmem
  · exact fun other count hhead => absurd hhead (hquiet.not_deliver other count)
  · exact fun other pc hhead => absurd hhead (hquiet.not_destroy other pc)

theorem phpStep_inv (h : Inv s order) (move : Move)
    (hstep : phpStep .nonZts 0 s move = some next) : ∃ after, Inv next after := by
  cases phpStep_moves hstep with
  | init hphp hinvalid => exact ⟨order, timerInit_inv h hphp hinvalid _⟩
  | start => exact ⟨order, timerStart_inv h _ _ _ _⟩
  | stop => exact ⟨order, timerStop_inv h _ _⟩
  | destroy hphp => exact ⟨order, timerDestroy_inv h hphp _⟩
  | join hstack => exact ⟨order, destroy_join_inv h hstack⟩
  | lock hstack => exact ⟨order, destroy_mutex_inv h hstack rfl (by simp) (by simp) (by simp)⟩
  | remove hstack hremove => exact ⟨_, destroy_remove_inv h hstack hremove⟩
  | unlock hstack => exact ⟨order, destroy_mutex_inv h hstack rfl (by simp) (by simp) (by simp)⟩
  | finish hstack => exact ⟨order, destroy_finish_inv h hstack⟩
  | interrupt hphp => exact ⟨order, interrupt_inv h hphp⟩
  | dequeue => exact dequeue_inv h hstep
  | call hstack => exact ⟨order, call_inv h hstack⟩
  | ret hstack => exact ⟨order, ret_inv h hstack⟩

/-- Without thread safety, thread 0 is the only PHP thread. -/
theorem step_php {number : Nat} {move : Move}
    (hstep : step .nonZts s (.php number move) = some next) :
    number = 0 ∧ phpStep .nonZts 0 s move = some next := by
  obtain ⟨hphp, hmove⟩ := Option.ite_none_right_eq_some.mp hstep
  obtain rfl : number = 0 := by simpa [Build.nonZts] using hphp
  exact ⟨rfl, hmove⟩

theorem step_inv (h : Inv s order) (action : Action)
    (hstep : step .nonZts s action = some next) : ∃ after, Inv next after := by
  cases action with
  | handle timer overrunCount => exact ⟨enqueued order timer, handle_inv h hstep⟩
  | store timer => exact ⟨order, store_inv h hstep⟩
  | raise php => exact ⟨order, raise_inv h hstep⟩
  | php number move =>
      obtain ⟨rfl, heq⟩ := step_php hstep
      exact phpStep_inv h move heq

end Steps

theorem reachable_inv {s : State} (hreach : Reachable .nonZts s) :
    ∃ order, Inv s order := by
  refine Transition.Reachable.invariant (fun s => ∃ order, Inv s order) ?_ ?_ hreach
  · rintro _ rfl
    exact ⟨[], initial_inv⟩
  · rintro s action next ⟨order, h⟩ hstep
    exact step_inv h action hstep

end Excimer.Timer
