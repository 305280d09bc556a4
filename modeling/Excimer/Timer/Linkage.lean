import Excimer.Timer.ThreadLocal

/-!
What the owner of a timer relies on when it clears or frees the memory of the
timer: a timer that is not valid is in no list. Both builds guarantee this for
the timers of one PHP thread, for different reasons. Without thread safety all
links belong to the one pending list of the process, and with it every handler
thread links its own timer to itself, in an instance that only this thread sees.
-/

namespace Excimer.Timer

open CircularList

/-- A step of a handler thread or of PHP thread 0. -/
def ofMainThread : Action → Bool
  | .php number _ => number == 0
  | _ => true

/-- A property of the subsystem that holds along every history of PHP thread 0,
also when the memory of a timer that is not valid is given to a new one, and
that keeps invalid timers out of the lists. -/
structure Tidy (build : Build) (P : State → Prop) : Prop where
  php : build.isPhp 0 = true
  initial : P State.initial
  step : ∀ {s next : State} {action : Action}, P s → ofMainThread action = true →
    Timer.step build s action = some next → P next
  clear : ∀ {s : State} {timer : TimerId}, P s → (s.timers timer).isValid = false →
    P (s.setTimer timer {})
  warn : ∀ {s : State} (message : String), P s → P (s.record (.warning message))
  unlinked : ∀ {s : State} {timer : TimerId}, P s → (s.timers timer).isValid = false →
    (s.timers timer).pendingNext = none ∧ (s.timers timer).pendingPrev = none
  listed : ∀ {s : State} {timer : TimerId}, P s →
    OnPendingList s (build.tls (.php 0)) timer → (s.timers timer).isValid = true

section NonZts

variable {s : State} {order : List TimerId}

theorem Inv.clear (h : Inv s order) {timer : TimerId}
    (hinvalid : (s.timers timer).isValid = false) : Inv (s.setTimer timer {}) order := by
  have hout := h.unlisted hinvalid
  have hother (other : TimerId) (hne : other ≠ timer) :
      (s.setTimer timer {}).timers other = s.timers other := by
    simp [State.setTimer, hne]
  have hvalid (other : TimerId) :
      ((s.setTimer timer {}).timers other).isValid = (s.timers other).isValid := by
    by_cases heq : other = timer
    · simp [State.setTimer, heq, hinvalid]
    · rw [hother other heq]
  have htracked (other : TimerId) : Tracked (s.setTimer timer {}) other ↔ Tracked s other := by
    simp only [Tracked, hvalid]
    rfl
  -- A valid timer is another one, so its record is the old one.
  have hne {other : TimerId} (htrue : (s.timers other).isValid = true) : other ≠ timer := by
    rintro rfl
    exact Bool.false_ne_true (hinvalid.symm.trans htrue)
  have hlinks : (s.setTimer timer {}).links (.php 0) = s.links (.php 0) :=
    links_setTimer (h.ring.next_outside timer hout).symm
      (h.ring.prev_outside timer hout).symm _
  refine ⟨hlinks ▸ h.ring, h.below, h.mutex, ?_, ?_, ?_, ?_, ?_, ?_, h.positive, ?_, ?_⟩
  · exact fun other hmem => (htracked other).mpr (h.listed other hmem)
  · intro other hmem
    rw [hother other (ne_of_mem_of_not_mem hmem hout)]
    exact h.count_listed other hmem
  · intro other ht hmem
    have hold := (htracked other).mp ht
    rw [hother other (hne hold.1)]
    exact h.count_unlisted other hold hmem
  · intro other ht
    have hold := (htracked other).mp ht
    rw [hother other (hne hold.1)]
    exact h.balance other hold
  · intro other
    simp only [Served, hvalid]
    exact h.served other
  · intro other htrue
    rw [hvalid] at htrue
    rw [hother other (hne htrue)]
    exact h.owner other htrue
  · exact fun other count hhead => (h.dequeued other count hhead).imp id (htracked other).mpr
  · intro other pc hhead
    rw [hvalid]
    exact h.destroying other pc hhead

theorem nonZts_tidy : Tidy .nonZts fun s => ∃ order, Inv s order where
  php := rfl
  initial := ⟨[], initial_inv⟩
  step := by
    rintro s next action ⟨order, h⟩ _ hstep
    exact step_inv h action hstep
  clear := by
    rintro s timer ⟨order, h⟩ hinvalid
    exact ⟨order, h.clear hinvalid⟩
  warn := by
    rintro s message ⟨order, h⟩
    exact ⟨order, h.record_neutral rfl⟩
  unlinked := by
    rintro s timer ⟨order, h⟩ hinvalid
    have hout := h.unlisted hinvalid
    exact ⟨h.ring.next_outside timer hout, h.ring.prev_outside timer hout⟩
  listed := by
    rintro s timer ⟨order, h⟩ hlisted
    exact (h.listed timer ((h.onPendingList_iff timer).mp hlisted)).1

end NonZts

/-- The number of the handler thread of a timer. -/
def handlerNumber (s : State) (timer : TimerId) : Option Nat :=
  (s.handlers timer).map Handler.number

theorem handlers_isSome {s : State} {timer : TimerId} {number : Nat}
    (hnumber : handlerNumber s timer = some number) : (s.handlers timer).isSome := by
  have hsome : (handlerNumber s timer).isSome := Option.isSome_iff_exists.mpr ⟨number, hnumber⟩
  simpa [handlerNumber] using hsome

@[simp] theorem State.setStack_stack (s : State) (php : Nat) (frames : List Frame) :
    (s.setStack php frames).stack php = frames := by
  simp [State.setStack]

def Unlinked (t : ExcimerTimer) : Prop :=
  t.pendingNext = none ∧ t.pendingPrev = none

/-- The timers of PHP thread 0 in the build with thread safety. Every handler
thread has an instance of its own, in which it can only find its own timer. -/
structure Solitary (s : State) : Prop where
  unheard : Unheard s
  single : (s.stack 0).length ≤ 1
  links : ∀ timer, Unlinked (s.timers timer) ∨
    (s.timers timer).pendingNext = some timer ∧ Tracked s timer
  served : ∀ timer, (s.handlers timer).isSome → Served s timer
  head : ∀ timer number, handlerNumber s timer = some number →
    (s.timers timer).pendingNext = none → (s.tls (.handler number)).pendingHead = none
  number_lt : ∀ timer number, handlerNumber s timer = some number → number < s.nextThread
  distinct : ∀ timer other number, handlerNumber s timer = some number →
    handlerNumber s other = some number → timer = other
  fresh : ∀ number, s.nextThread ≤ number → (s.tls (.handler number)).pendingHead = none

theorem initial_solitary : Solitary State.initial where
  unheard := initial_unheard
  single := Nat.zero_le 1
  links timer := Or.inl ⟨rfl, rfl⟩
  served timer hsome := by cases hsome
  head timer number hnumber := by cases hnumber
  number_lt timer number hnumber := by cases hnumber
  distinct timer other number hnumber := by cases hnumber
  fresh number hle := rfl

namespace Solitary

variable {s next : State}

/-- A step that does not link anything and creates no thread. -/
theorem frame (h : Solitary s) (hunheard : Unheard next) (hsingle : (next.stack 0).length ≤ 1)
    (hlinks : ∀ timer, Unlinked (next.timers timer) ∨
      (next.timers timer).pendingNext = (s.timers timer).pendingNext ∧
        (next.timers timer).pendingPrev = (s.timers timer).pendingPrev ∧
        (Tracked s timer → Tracked next timer))
    (hserved : ∀ timer, (next.handlers timer).isSome → Served next timer)
    (hkept : ∀ timer number, handlerNumber next timer = some number →
      handlerNumber s timer = some number ∧
        (next.timers timer).pendingNext = (s.timers timer).pendingNext)
    (hheads : ∀ number, (next.tls (.handler number)).pendingHead =
      (s.tls (.handler number)).pendingHead)
    (hthread : next.nextThread = s.nextThread) : Solitary next where
  unheard := hunheard
  single := hsingle
  links timer := by
    rcases hlinks timer with hnone | ⟨hnext, hprev, htracked⟩
    · exact Or.inl hnone
    · rcases h.links timer with hnone | hself
      · exact Or.inl ⟨hnext.trans hnone.1, hprev.trans hnone.2⟩
      · exact Or.inr ⟨hnext.trans hself.1, htracked hself.2⟩
  served := hserved
  head timer number hnumber hnone := by
    obtain ⟨hold, hnext⟩ := hkept timer number hnumber
    rw [hheads]
    exact h.head timer number hold (hnext.symm.trans hnone)
  number_lt timer number hnumber := by
    rw [hthread]
    exact h.number_lt timer number (hkept timer number hnumber).1
  distinct timer other number hnumber hother :=
    h.distinct timer other number (hkept timer number hnumber).1 (hkept other number hother).1
  fresh number hle := by
    rw [hheads]
    exact h.fresh number (hthread ▸ hle)

/-- The same for a step that leaves the stack and the timers' flags alone. -/
theorem same (h : Solitary s) (hunheard : Unheard next) (hstack : next.stack 0 = s.stack 0)
    (htimers : ∀ timer, (next.timers timer).isValid = (s.timers timer).isValid ∧
      (next.timers timer).pendingNext = (s.timers timer).pendingNext ∧
      (next.timers timer).pendingPrev = (s.timers timer).pendingPrev)
    (hnumbers : ∀ timer, handlerNumber next timer = handlerNumber s timer)
    (hheads : ∀ number, (next.tls (.handler number)).pendingHead =
      (s.tls (.handler number)).pendingHead)
    (hthread : next.nextThread = s.nextThread) : Solitary next := by
  have hsome (timer : TimerId) : (next.handlers timer).isSome = (s.handlers timer).isSome := by
    have hmap := congrArg Option.isSome (hnumbers timer)
    simpa [handlerNumber] using hmap
  refine h.frame hunheard (hstack ▸ h.single) ?_ ?_ ?_ hheads hthread
  · intro timer
    refine Or.inr ⟨(htimers timer).2.1, (htimers timer).2.2, ?_⟩
    simp only [Tracked, hstack, (htimers timer).1]
    exact id
  · intro timer hhandler
    simp only [Served, hstack, (htimers timer).1]
    exact h.served timer (hsome timer ▸ hhandler)
  · exact fun timer number hnumber => ⟨(hnumbers timer) ▸ hnumber, (htimers timer).2.1⟩

/-- A handler thread that finds its timer unlinked has an empty list. -/
theorem enqueue_self (h : Solitary s) {timer : TimerId} {number : Nat}
    (hnumber : handlerNumber s timer = some number) {links : Links TimerId}
    (hlinks : listEnqueue (s.links (.handler number)) timer = some links) :
    links = s.links (.handler number) ∨ (s.timers timer).pendingNext = none ∧
      links = ⟨Function.update (s.links (.handler number)).next timer (some timer),
        Function.update (s.links (.handler number)).prev timer (some timer), some timer⟩ := by
  unfold listEnqueue at hlinks
  split at hlinks
  case isFalse hlinked => exact Or.inl (Option.some.inj hlinks).symm
  case isTrue hnone =>
    have hhead : (s.links (.handler number)).head = none := h.head timer number hnumber hnone
    rw [hhead] at hlinks
    exact Or.inr ⟨hnone, (Option.some.inj hlinks).symm⟩

/-- The effect of `excimer_timer_handle` on the instance of its own thread. -/
theorem step_handle {timer : TimerId} {overrunCount : Int}
    (hstep : step .zts s (.handle timer overrunCount) = some next) :
    ∃ number, s.handlers timer = some ⟨number, false⟩ ∧
      next.handlers = Function.update s.handlers timer (some ⟨number, true⟩) ∧
      listEnqueue (s.links (.handler number)) timer = some (next.links (.handler number)) ∧
      (∀ other, (next.timers other).isValid = (s.timers other).isValid) ∧
      (∀ other, other ≠ number → (next.tls (.handler other)).pendingHead =
        (s.tls (.handler other)).pendingHead) ∧
      next.stack = s.stack ∧ next.nextThread = s.nextThread := by
  cases step_moves hstep with
  | @handle _ _ number _ hhandler _ henqueue =>
      obtain ⟨_, henqueue⟩ := Option.ite_none_right_eq_some.mp henqueue
      obtain ⟨links, hlinks, rfl⟩ := Option.map_eq_some_iff.mp henqueue
      have htls : Build.zts.tls (.handler number) = .handler number := rfl
      rw [htls, links_setTimer (by rfl) (by rfl)] at hlinks
      rw [htls]
      refine ⟨number, hhandler, rfl, ?_, ?_, ?_, rfl, rfl⟩
      · rw [hlinks, Option.some.injEq]
        exact (State.links_withLinks _ (.handler number) links).symm
      · intro other
        by_cases heq : other = timer <;> simp [State.withLinks, State.setTimer, heq]
      · intro other hne
        simp [State.withLinks, State.setTimer, hne]

theorem handle (h : Solitary s) {timer : TimerId} {overrunCount : Int}
    (hstep : step .zts s (.handle timer overrunCount) = some next) : Solitary next := by
  have hunheard := h.unheard.handle hstep
  obtain ⟨number, hhandler, hhandlers, henqueue, hvalid, hheads, hstack, hthread⟩ :=
    step_handle hstep
  have hnumber : handlerNumber s timer = some number := by simp [handlerNumber, hhandler]
  have hnumbers (other : TimerId) : handlerNumber next other = handlerNumber s other := by
    by_cases heq : other = timer
    · simp [handlerNumber, hhandlers, heq, hhandler]
    · simp [handlerNumber, hhandlers, heq]
  rcases h.enqueue_self hnumber henqueue with hlinks | ⟨hnone, hlinks⟩
  · -- The timer is in the list already and only its count changes.
    refine h.same hunheard (congrFun hstack 0) ?_ hnumbers ?_ hthread
    · intro other
      exact ⟨hvalid other, congrFun (congrArg Links.next hlinks) other,
        congrFun (congrArg Links.prev hlinks) other⟩
    · intro other
      by_cases heq : other = number
      · exact heq ▸ congrArg Links.head hlinks
      · exact hheads other heq
  · have hself : (next.timers timer).pendingNext = some timer := by
      exact (congrFun (congrArg Links.next hlinks) timer).trans (Function.update_self ..)
    have hothers (other : TimerId) (hne : other ≠ timer) :
        (next.timers other).pendingNext = (s.timers other).pendingNext ∧
          (next.timers other).pendingPrev = (s.timers other).pendingPrev := by
      have hnext := congrFun (congrArg Links.next hlinks) other
      have hprev := congrFun (congrArg Links.prev hlinks) other
      simp only [Function.update_of_ne hne] at hnext hprev
      exact ⟨hnext, hprev⟩
    have htracked (other : TimerId) : Tracked next other ↔ Tracked s other := by
      simp only [Tracked, hvalid, hstack]
    have hserved : Served s timer := h.served timer (by simp [hhandler])
    refine ⟨hunheard, hstack ▸ h.single, ?_, ?_, ?_, ?_, ?_, ?_⟩
    · intro other
      by_cases heq : other = timer
      · subst heq
        exact Or.inr ⟨hself, (htracked other).mpr (Inv.served_tracked hserved)⟩
      · obtain ⟨hnext, hprev⟩ := hothers other heq
        rw [Unlinked, hnext, hprev, htracked]
        exact h.links other
    · intro other hsome
      simp only [Served, hvalid, hstack]
      by_cases heq : other = timer
      · exact heq ▸ hserved
      · exact h.served other (by simpa [hhandlers, heq] using hsome)
    · intro other found hfound hunlinked
      rw [hnumbers] at hfound
      have hne : other ≠ timer := by
        rintro rfl
        rw [hself] at hunlinked
        cases hunlinked
      have hdistinct : found ≠ number := by
        rintro rfl
        exact hne (h.distinct other timer found hfound hnumber)
      rw [hheads found hdistinct]
      exact h.head other found hfound ((hothers other hne).1.symm.trans hunlinked)
    · intro other found hfound
      rw [hthread]
      exact h.number_lt other found (hnumbers other ▸ hfound)
    · intro other third found hfound hthird
      exact h.distinct other third found (hnumbers other ▸ hfound) (hnumbers third ▸ hthird)
    · intro found hle
      rw [hthread] at hle
      have hne : found ≠ number := by
        rintro rfl
        exact absurd (h.number_lt timer found hnumber) (Nat.not_lt.mpr hle)
      rw [hheads found hne]
      exact h.fresh found hle

theorem set_running (h : Solitary s) (timer : TimerId) (running : Bool) :
    Solitary (s.setRunning timer running) := by
  refine h.same (h.unheard.set_running timer running) rfl ?_ (fun _ => rfl) (fun _ => rfl) rfl
  intro other
  by_cases heq : other = timer <;> simp [State.setRunning, State.setTimer, heq]

theorem record (h : Solitary s) (event : Event)
    (hevent : ∀ timer count, event ≠ .callback timer count) : Solitary (s.record event) :=
  h.same (h.unheard.record event hevent) rfl (fun _ => ⟨rfl, rfl, rfl⟩) (fun _ => rfl)
    (fun _ => rfl) rfl

theorem start (h : Solitary s) (timer : TimerId) (period initial : Timespec) (ok : Bool) :
    Solitary (timerStart s timer period initial ok) := by
  unfold timerStart
  repeat' split
  · exact h.record _ (by simp)
  · exact h.record _ (by simp)
  · exact (h.set_running timer true).record _ (by simp)
  · exact h

theorem stop (h : Solitary s) (timer : TimerId) (ok : Bool) :
    Solitary (timerStop s timer ok) := by
  unfold timerStop
  repeat' split
  · exact h.record _ (by simp)
  · exact (h.set_running timer false).record _ (by simp)
  · exact h
  · exact h.record _ (by simp)

/-- PHP code runs on an empty stack, since there are no callbacks. -/
theorem stack_nil (h : Solitary s) (hphp : s.runsPhp 0 = true) : s.stack 0 = [] := by
  unfold State.runsPhp at hphp
  cases hstack : s.stack 0 with
  | nil => rfl
  | cons top rest =>
      rw [hstack] at hphp
      rcases h.unheard.stack 0 top (by simp [hstack]) with rfl | ⟨timer, pc, rfl⟩ <;> cases hphp

/-- A timer that is not valid has no handler thread. -/
theorem handler_none (h : Solitary s) {timer : TimerId}
    (hinvalid : (s.timers timer).isValid = false) : s.handlers timer = none := by
  rw [← Option.not_isSome_iff_eq_none]
  intro hsome
  exact Bool.false_ne_true (hinvalid.symm.trans (h.served timer hsome).1)

/-- Overwriting a timer that is not valid by an unlinked one. -/
theorem reset (h : Solitary s) {timer : TimerId} {value : ExcimerTimer}
    (hinvalid : (s.timers timer).isValid = false) (hunlinked : Unlinked value)
    (hunheard : Unheard (s.setTimer timer value)) :
    Solitary (s.setTimer timer value) := by
  have hother (other : TimerId) (hne : other ≠ timer) :
      (s.setTimer timer value).timers other = s.timers other := by
    simp [State.setTimer, hne]
  have hne {other : TimerId} (hsome : (s.handlers other).isSome) : other ≠ timer := by
    rintro rfl
    rw [h.handler_none hinvalid] at hsome
    cases hsome
  refine h.frame hunheard h.single ?_ ?_ ?_ (fun _ => rfl) rfl
  · intro other
    by_cases heq : other = timer
    · exact Or.inl (by simpa [State.setTimer, heq] using hunlinked)
    · rw [Tracked, Tracked, hother other heq]
      exact Or.inr ⟨rfl, rfl, id⟩
  · intro other hsome
    rw [Served, hother other (hne hsome)]
    exact h.served other hsome
  · intro other number hnumber
    have hsome := handlers_isSome hnumber
    exact ⟨hnumber, by rw [hother other (hne hsome)]⟩

/-- A new handler thread with an instance that nobody has used. -/
theorem init_ok (h : Solitary s) (hphp : s.runsPhp 0 = true) {timer : TimerId}
    (hinvalid : (s.timers timer).isValid = false) :
    Solitary (timerInit .zts 0 s timer true) := by
  have hstack := h.stack_nil hphp
  have hnone := h.handler_none hinvalid
  have hunheard := h.unheard.init 0 timer true
  set next := timerInit .zts 0 s timer true with hnext
  have hother (other : TimerId) (hne : other ≠ timer) :
      next.timers other = s.timers other ∧ handlerNumber next other = handlerNumber s other := by
    simp [hnext, timerInit, State.record, handlerNumber, hne]
  have hself : Unlinked (next.timers timer) ∧ (next.timers timer).isValid = true ∧
      handlerNumber next timer = some s.nextThread := by
    simp [hnext, timerInit, State.record, handlerNumber, Unlinked]
  have hframes : next.stack 0 = [] := hstack
  have hheads (number : Nat) :
      (next.tls (.handler number)).pendingHead = (s.tls (.handler number)).pendingHead := by
    simp [hnext, timerInit, State.record, Build.zts]
  have hnumbers {other : TimerId} {number : Nat}
      (hnumber : handlerNumber next other = some number) :
      other = timer ∧ number = s.nextThread ∨
        other ≠ timer ∧ handlerNumber s other = some number := by
    by_cases heq : other = timer
    · rw [heq, hself.2.2, Option.some.injEq] at hnumber
      exact Or.inl ⟨heq, hnumber.symm⟩
    · rw [(hother other heq).2] at hnumber
      exact Or.inr ⟨heq, hnumber⟩
  refine ⟨hunheard, by simp [hframes], ?_, ?_, ?_, ?_, ?_, ?_⟩
  · intro other
    by_cases heq : other = timer
    · exact Or.inl (heq ▸ hself.1)
    · rw [Tracked, (hother other heq).1, hframes, ← hstack]
      exact h.links other
  · intro other hsome
    refine ⟨?_, by simp [hframes]⟩
    by_cases heq : other = timer
    · exact heq ▸ hself.2.1
    · rw [(hother other heq).1]
      exact (h.served other (by simpa [hnext, timerInit, State.record, heq] using hsome)).1
  · intro other number hnumber hunlinked
    rw [hheads]
    rcases hnumbers hnumber with ⟨_, rfl⟩ | ⟨hne, hold⟩
    · exact h.fresh s.nextThread (Nat.le_refl _)
    · rw [(hother other hne).1] at hunlinked
      exact h.head other number hold hunlinked
  · intro other number hnumber
    change number < s.nextThread + 1
    rcases hnumbers hnumber with ⟨_, rfl⟩ | ⟨_, hold⟩
    · exact Nat.lt_succ_self _
    · exact Nat.lt_succ_of_lt (h.number_lt other number hold)
  · intro first second number hfirst hsecond
    -- The number of the new thread is larger than all others.
    rcases hnumbers hfirst with ⟨hone, rfl⟩ | ⟨_, hone⟩
    · rcases hnumbers hsecond with ⟨htwo, _⟩ | ⟨_, htwo⟩
      · exact hone.trans htwo.symm
      · exact absurd (h.number_lt second _ htwo) (Nat.lt_irrefl _)
    · rcases hnumbers hsecond with ⟨_, rfl⟩ | ⟨_, htwo⟩
      · exact absurd (h.number_lt first _ hone) (Nat.lt_irrefl _)
      · exact h.distinct first second number hone htwo
  · intro number hle
    rw [hheads]
    exact h.fresh number (Nat.le_of_succ_le hle)

theorem init (h : Solitary s) (hphp : s.runsPhp 0 = true) {timer : TimerId}
    (hinvalid : (s.timers timer).isValid = false) (ok : Bool) :
    Solitary (timerInit .zts 0 s timer ok) := by
  cases ok with
  | false =>
      exact (h.record (.init timer false) (by simp)).reset hinvalid ⟨rfl, rfl⟩
        (h.unheard.init 0 timer false)
  | true => exact h.init_ok hphp hinvalid

theorem clear (h : Solitary s) {timer : TimerId}
    (hinvalid : (s.timers timer).isValid = false) : Solitary (s.setTimer timer {}) := by
  refine h.reset hinvalid ⟨rfl, rfl⟩ ⟨h.unheard.head, ?_, h.unheard.stack, h.unheard.trace⟩
  intro other tls htls
  by_cases heq : other = timer
  · simp [State.setTimer, heq] at htls
  · exact h.unheard.owner other tls (by simpa [State.setTimer, heq] using htls)

theorem destroy (h : Solitary s) (hphp : s.runsPhp 0 = true) (timer : TimerId) :
    Solitary (timerDestroy .zts 0 s timer) := by
  have hunheard := h.unheard.destroy 0 timer
  have hstack := h.stack_nil hphp
  revert hunheard
  unfold timerDestroy
  repeat' split
  · exact fun _ => h.record _ (by simp)
  · exact fun _ => (h.record _ (by simp)).record _ (by simp)
  · intro hunheard
    have hstopped := h.set_running timer false
    set stopped := s.setRunning timer false
    have hframes : (stopped.setStack 0 (.destroy timer .timerlib :: s.stack 0)).stack 0 =
        [.destroy timer .timerlib] := by
      simp [State.setStack, hstack]
    refine hstopped.frame hunheard (by simp [hstack]) ?_ ?_
      (fun other number hnumber => ⟨hnumber, rfl⟩) (fun _ => rfl) rfl
    · intro other
      refine Or.inr ⟨rfl, rfl, ?_⟩
      intro htracked
      rw [Tracked, hframes]
      exact ⟨htracked.1, by simp, by simp⟩
    · intro other hsome
      rw [Served, hframes]
      refine ⟨(hstopped.served other hsome).1, ?_⟩
      intro pc hhead
      cases hhead
      rfl

/-- After the timer library has returned, the handler thread is gone. -/
theorem handler_gone (h : Solitary s) {timer : TimerId} {pc : DestroyPc} {rest : List Frame}
    (hstack : s.stack 0 = .destroy timer pc :: rest) (hpc : pc ≠ .timerlib) :
    s.handlers timer = none := by
  rw [← Option.not_isSome_iff_eq_none]
  intro hsome
  exact hpc ((h.served timer hsome).2 pc (by simp [hstack]))

/-- A step of `excimer_timer_destroy` from one frame to the next. Past the
removal the timer must be unlinked. -/
theorem destroy_move (h : Solitary s) {timer : TimerId} {pc pc' : DestroyPc}
    {rest : List Frame} (hstack : s.stack 0 = .destroy timer pc :: rest)
    (hunheard : Unheard next) (hnext : next.stack 0 = .destroy timer pc' :: rest)
    (hvalid : ∀ other, (next.timers other).isValid = (s.timers other).isValid)
    (hself : Unlinked (next.timers timer) ∨
      (next.timers timer).pendingNext = (s.timers timer).pendingNext ∧
        (next.timers timer).pendingPrev = (s.timers timer).pendingPrev ∧
        (pc' = .lock ∨ pc' = .remove))
    (hothers : ∀ other, other ≠ timer →
      (next.timers other).pendingNext = (s.timers other).pendingNext ∧
        (next.timers other).pendingPrev = (s.timers other).pendingPrev)
    (hhandlers : next.handlers = Function.update s.handlers timer none)
    (hheads : ∀ number, (next.tls (.handler number)).pendingHead =
      (s.tls (.handler number)).pendingHead)
    (hthread : next.nextThread = s.nextThread) : Solitary next := by
  have hsingle := h.single
  rw [hstack] at hsingle
  have hne {other : TimerId} (hsome : (next.handlers other).isSome) : other ≠ timer := by
    rintro rfl
    simp [hhandlers] at hsome
  refine h.frame hunheard (by rw [hnext]; exact hsingle) ?_ ?_ ?_ hheads hthread
  · intro other
    by_cases heq : other = timer
    · subst heq
      refine hself.imp id (fun ⟨hn, hp, hpc⟩ => ⟨hn, hp, ?_⟩)
      intro htracked
      refine ⟨(hvalid other).trans htracked.1, ?_, ?_⟩ <;> rw [hnext] <;>
        rcases hpc with rfl | rfl <;> simp
    · refine Or.inr ⟨(hothers other heq).1, (hothers other heq).2, ?_⟩
      intro htracked
      refine ⟨(hvalid other).trans htracked.1, ?_, ?_⟩ <;> simp [hnext, Ne.symm heq]
  · intro other hsome
    have hold : (s.handlers other).isSome := by simpa [hhandlers, hne hsome] using hsome
    refine ⟨(hvalid other).trans (h.served other hold).1, ?_⟩
    intro pc hhead
    rw [hnext] at hhead
    cases hhead
    exact absurd rfl (hne hsome)
  · intro other number hnumber
    have hsome := handlers_isSome hnumber
    refine ⟨?_, (hothers other (hne hsome)).1⟩
    simpa [handlerNumber, hhandlers, hne hsome] using hnumber

/-- A timer is alone in its list, so removing it touches no other timer. -/
theorem remove_self (h : Solitary s) {timer : TimerId} {links : Links TimerId}
    (hlinks : listRemove (s.links (.php 0)) timer = some links) :
    links.next timer = none ∧ links.prev timer = none ∧
      ∀ other, other ≠ timer → links.next other = (s.timers other).pendingNext ∧
        links.prev other = (s.timers other).pendingPrev := by
  unfold listRemove at hlinks
  rcases h.links timer with hunlinked | ⟨hself, _⟩
  · have hnext : (s.links (.php 0)).next timer = none := hunlinked.1
    rw [hnext] at hlinks
    cases hlinks
    exact ⟨hunlinked.1, hunlinked.2, fun other _ => ⟨rfl, rfl⟩⟩
  · have hnext : (s.links (.php 0)).next timer = some timer := hself
    simp only [hnext, if_true] at hlinks
    cases hlinks
    refine ⟨by simp, by simp, ?_⟩
    intro other hne
    simp [hne, State.links]

/-- A step to a stack without `excimer_timer_destroy`. -/
theorem quiet_move (h : Solitary s) (hunheard : Unheard next) (hquiet : quiet (next.stack 0))
    (hsingle : (next.stack 0).length ≤ 1)
    (hlinks : ∀ timer, (next.timers timer).pendingNext = (s.timers timer).pendingNext ∧
      (next.timers timer).pendingPrev = (s.timers timer).pendingPrev)
    (hvalid : ∀ timer, Tracked s timer ∨ (s.handlers timer).isSome →
      (next.timers timer).isValid = true)
    (hhandlers : next.handlers = s.handlers)
    (hheads : ∀ number, (next.tls (.handler number)).pendingHead =
      (s.tls (.handler number)).pendingHead)
    (hthread : next.nextThread = s.nextThread) : Solitary next := by
  refine h.frame hunheard hsingle ?_ ?_ ?_ hheads hthread
  · intro timer
    refine Or.inr ⟨(hlinks timer).1, (hlinks timer).2, ?_⟩
    intro htracked
    exact (hquiet.tracked_iff timer).mpr (hvalid timer (Or.inl htracked))
  · intro timer hsome
    rw [hhandlers] at hsome
    exact (hquiet.served_iff timer).mpr (hvalid timer (Or.inr hsome))
  · intro timer number hnumber
    rw [handlerNumber, hhandlers] at hnumber
    exact ⟨hnumber, (hlinks timer).1⟩

/-- The stack has one frame at most. -/
theorem rest_nil (h : Solitary s) {frame : Frame} {rest : List Frame}
    (hstack : s.stack 0 = frame :: rest) : rest = [] := by
  have hsingle := h.single
  rw [hstack] at hsingle
  exact List.eq_nil_of_length_eq_zero (by simpa using hsingle)

theorem valid_of_used (h : Solitary s) {timer : TimerId}
    (hused : Tracked s timer ∨ (s.handlers timer).isSome) : (s.timers timer).isValid = true := by
  rcases hused with htracked | hsome
  · exact htracked.1
  · exact (h.served timer hsome).1

theorem unlinked_of_untracked (h : Solitary s) {timer : TimerId} (hout : ¬Tracked s timer) :
    Unlinked (s.timers timer) := by
  rcases h.links timer with hunlinked | ⟨_, htracked⟩
  · exact hunlinked
  · exact absurd htracked hout

theorem destroy_finish (h : Solitary s) {timer : TimerId} {rest : List Frame}
    (hstack : s.stack 0 = .destroy timer .finish :: rest)
    (hnext : next =
      ((s.setTimer timer { s.timers timer with isValid := false, tls := none }).setStack 0
        rest).record (.destroyed timer))
    (hunheard : Unheard next) : Solitary next := by
  have hgone := h.handler_gone hstack (by simp)
  obtain rfl := h.rest_nil hstack
  subst hnext
  refine h.quiet_move hunheard ?_ ?_ ?_ ?_ rfl (fun _ => rfl) rfl
  · intro frame hhead
    simp [State.record] at hhead
  · simp [State.record]
  · intro other
    by_cases heq : other = timer <;> simp [State.setStack, State.setTimer, State.record, heq]
  · intro other hused
    have hne : other ≠ timer := by
      rintro rfl
      rcases hused with htracked | hsome
      · exact htracked.2.2 (by simp [hstack])
      · simp [hgone] at hsome
    simpa [State.setStack, State.setTimer, State.record, hne] using h.valid_of_used hused

theorem destroy_next (h : Solitary s)
    (hstep : phpStep .zts 0 s .destroyNext = some next) : Solitary next := by
  have hunheard := h.unheard.destroy_next hstep
  have hgone {timer : TimerId} {pc : DestroyPc} {rest : List Frame}
      (hstack : s.stack 0 = .destroy timer pc :: rest) (hpc : pc ≠ .timerlib) :
      s.handlers = Function.update s.handlers timer none :=
    (Function.update_eq_self_iff.mpr (h.handler_gone hstack hpc).symm).symm
  cases phpStep_moves hstep with
  | join hstack =>
      refine h.destroy_move hstack hunheard (State.setStack_stack _ 0 _) (fun _ => rfl)
        (Or.inr ⟨rfl, rfl, Or.inl rfl⟩) (fun _ _ => ⟨rfl, rfl⟩) rfl ?_ rfl
      intro number
      simp [State.setStack, Build.zts]
  | lock hstack =>
      refine h.destroy_move hstack hunheard (State.setStack_stack _ 0 _) (fun _ => rfl)
        (Or.inr ⟨rfl, rfl, Or.inr rfl⟩) (fun _ _ => ⟨rfl, rfl⟩) (hgone hstack (by simp)) ?_ rfl
      intro number
      simp [State.setStack, State.setMutex, Build.zts]
  | remove hstack hremove =>
      obtain ⟨hnext, hprev, hothers⟩ := h.remove_self hremove
      refine h.destroy_move hstack hunheard (State.setStack_stack _ 0 _) (fun _ => rfl)
        (Or.inl ⟨hnext, hprev⟩) hothers (hgone hstack (by simp)) ?_ rfl
      intro number
      simp [State.setStack, State.withLinks, Build.zts]
  | @unlock timer rest hstack =>
      have hunlinked : Unlinked (s.timers timer) :=
        h.unlinked_of_untracked fun htracked => absurd (by simp [hstack]) htracked.2.1
      refine h.destroy_move hstack hunheard (State.setStack_stack _ 0 _) (fun _ => rfl)
        (Or.inl hunlinked) (fun _ _ => ⟨rfl, rfl⟩) (hgone hstack (by simp)) ?_ rfl
      intro number
      simp [State.setStack, State.setMutex, Build.zts]
  | finish hstack => exact h.destroy_finish hstack rfl hunheard

/-- Entering and leaving the interrupt function, which finds the list of its
thread empty. -/
theorem interrupt_move (h : Solitary s) {flag : Nat → Bool} {frames : List Frame}
    (hunheard : Unheard ({ s with vmInterrupt := flag }.setStack 0 frames))
    (hquiet : quiet frames) (hsingle : frames.length ≤ 1) :
    Solitary ({ s with vmInterrupt := flag }.setStack 0 frames) := by
  refine h.quiet_move hunheard ?_ ?_ (fun _ => ⟨rfl, rfl⟩) ?_ rfl (fun _ => rfl) rfl
  · rw [State.setStack_stack]
    exact hquiet
  · rw [State.setStack_stack]
    exact hsingle
  · exact fun timer => h.valid_of_used

theorem dequeue (h : Solitary s)
    (hstep : phpStep .zts 0 s .dequeue = some next) : Solitary next := by
  have hunheard := h.unheard.dequeue hstep
  obtain ⟨rest, hstack, rfl⟩ := h.unheard.dequeue_empty hstep
  obtain rfl := h.rest_nil hstack
  exact h.interrupt_move hunheard (quiet_of_callbacks (by simp)) (Nat.zero_le 1)

theorem php_step (h : Solitary s) (move : Move)
    (hstep : phpStep .zts 0 s move = some next) : Solitary next := by
  have hunheard := h.unheard.php_step move hstep
  cases phpStep_moves hstep with
  | init hphp hinvalid => exact h.init hphp hinvalid _
  | start => exact h.start _ _ _ _
  | stop => exact h.stop _ _
  | destroy hphp => exact h.destroy hphp _
  | join => exact h.destroy_next hstep
  | lock => exact h.destroy_next hstep
  | remove => exact h.destroy_next hstep
  | unlock => exact h.destroy_next hstep
  | finish => exact h.destroy_next hstep
  | interrupt hphp =>
      have hnil := h.stack_nil hphp
      refine h.interrupt_move hunheard (quiet_drain _) ?_
      simp [hnil]
  | dequeue => exact h.dequeue hstep
  | call hstack => exact absurd rfl ((h.unheard.no_callback hstack).1 _ _)
  | ret hstack => exact absurd rfl ((h.unheard.no_callback hstack).2 _)

theorem step (h : Solitary s) {action : Action} (hmain : ofMainThread action = true)
    (hstep : Timer.step .zts s action = some next) : Solitary next := by
  have hunheard := h.unheard.step action hstep
  cases step_moves hstep with
  | handle => exact h.handle hstep
  | @store timer number php hhandler =>
      refine h.same hunheard rfl (fun _ => ⟨rfl, rfl, rfl⟩) ?_ (fun _ => rfl) rfl
      intro other
      by_cases heq : other = timer <;> simp [handlerNumber, heq, hhandler]
  | raise =>
      exact h.same hunheard rfl (fun _ => ⟨rfl, rfl, rfl⟩) (fun _ => rfl) (fun _ => rfl) rfl
  | @php number move _ _ hmove =>
      obtain rfl : number = 0 := by simpa [ofMainThread] using hmain
      exact h.php_step move hmove

end Solitary

theorem zts_tidy : Tidy .zts Solitary where
  php := rfl
  initial := initial_solitary
  step h hmain hstep := h.step hmain hstep
  clear h hinvalid := h.clear hinvalid
  warn message h := h.record _ (by simp)
  unlinked := by
    intro s timer h hinvalid
    exact h.unlinked_of_untracked fun htracked =>
      Bool.false_ne_true (hinvalid.symm.trans htracked.1)
  listed := by
    rintro s timer h ⟨head, hhead, _⟩
    have hnone : (s.tls (.php 0)).pendingHead = none := h.unheard.head 0
    cases hnone.symm.trans hhead

end Excimer.Timer
