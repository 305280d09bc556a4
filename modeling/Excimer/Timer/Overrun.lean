import Excimer.Timer.Flow

/-!
The overrun count on its way from the operating system to `event_count`. Both
backends pass it through an `int`, and `excimer_timer_handle` adds one to it in
that type before the sum is widened to a `zend_long`.
-/

namespace Excimer.Timer

/-- What the operating system reports: the field `si_overrun` of a signal, or
the field `data` of a kernel event. -/
inductive Notification where
  | posix (siOverrun : Int)
  | kqueue (data : Int)
  deriving DecidableEq, Repr

/-- The value of a `zend_long` expression, taken modulo 2^64. -/
def zendLong (value : Int) : Int := value.bmod (2 ^ 64)

namespace Notification

/-- The number of expiries that a notification stands for. -/
def expirations : Notification → Int
  | .posix siOverrun => siOverrun + 1
  | .kqueue data => data

/-- `si_overrun` is a nonnegative `int`, `data` a positive `intptr_t`. -/
def Reportable : Notification → Prop
  | .posix siOverrun => 0 ≤ siOverrun ∧ siOverrun ≤ intMax
  | .kqueue data => 1 ≤ data ∧ data < 2 ^ 63

instance (n : Notification) : Decidable n.Reportable :=
  match n with
  | .posix _ => inferInstanceAs (Decidable (_ ∧ _))
  | .kqueue _ => inferInstanceAs (Decidable (_ ∧ _))

/-- The argument of the notify function: `si_overrun` in
`timerlib_timer_thread_main`, and `(int)event->data - 1` in
`timerlib_handle_timer_event`. -/
def overrunCount : Notification → Int
  | .posix siOverrun => siOverrun
  | .kqueue data => toInt (toInt data - 1)

/-- The `event_count` of a timer after a notification. -/
def counted (n : Notification) (eventCount : Int) : Int :=
  zendLong (eventCount + toInt (n.overrunCount + 1))

variable {n : Notification}

theorem Reportable.one_le (hn : n.Reportable) : 1 ≤ n.expirations := by
  cases n with
  | posix siOverrun =>
      have hlow := hn.1
      simp only [expirations]
      omega
  | kqueue data => exact hn.1

theorem Reportable.lt (hn : n.Reportable) : n.expirations < 2 ^ 63 := by
  cases n with
  | posix siOverrun =>
      have hhigh := hn.2
      simp only [expirations]
      unfold intMax at hhigh
      omega
  | kqueue data => exact hn.2

/-- Taking one off and adding it again cancels, also across a wrap-around. -/
theorem toInt_overrunCount (n : Notification) :
    toInt (n.overrunCount + 1) = toInt n.expirations := by
  cases n with
  | posix siOverrun => rfl
  | kqueue data => simp [overrunCount, expirations, toInt]

/-- A notification is counted exactly if its expiries fit into an `int`. -/
theorem counted_eq_iff (hn : n.Reportable) {eventCount : Int} (hlow : 0 ≤ eventCount)
    (htotal : eventCount + n.expirations < 2 ^ 63) :
    n.counted eventCount = eventCount + n.expirations ↔ n.expirations ≤ intMax := by
  have hone := hn.one_le
  rw [counted, toInt_overrunCount]
  unfold zendLong toInt intMax
  rw [Int.bmod_def, Int.bmod_def]
  constructor
  · intro heq
    split at heq <;> split at heq <;> omega
  · intro hle
    split <;> split <;> omega

theorem overrunCount_eq (hn : n.Reportable) (hle : n.expirations ≤ intMax) :
    n.overrunCount = n.expirations - 1 := by
  cases n with
  | posix siOverrun => simp [overrunCount, expirations]
  | kqueue data =>
      have hlow := hn.1
      have hdata : toInt data = data := toInt_of_range (by omega) hle
      have hhigh : data ≤ intMax := hle
      rw [overrunCount, hdata, toInt_of_range (by omega) (by omega)]
      rfl

end Notification

/-- `excimer_timer_handle` with the arithmetic of its types. -/
def handleEnqueue64 (build : Build) (thread : Thread) (s : State) (timer : TimerId)
    (n : Notification) : Option State :=
  let self := build.tls thread
  if (s.tls self).mutex = none then
    let t := s.timers timer
    let s := s.setTimer timer { t with eventCount := n.counted t.eventCount }
    (listEnqueue (s.links self) timer).map fun links => s.withLinks self links
  else
    none

/-- The handler thread of a timer passes a notification on. -/
def notify (build : Build) (s : State) (timer : TimerId) (n : Notification) : Option State :=
  match s.handlers timer with
  | some ⟨number, false⟩ =>
      if n.Reportable then
        (handleEnqueue64 build (.handler number) s timer n).map fun s =>
          { s with
            handlers := Function.update s.handlers timer (some ⟨number, true⟩)
            trace := .handle timer n.overrunCount :: s.trace }
      else
        none
  | _ => none

section Bounded

variable {s next : State} {order : List TimerId}

/-- While nothing wraps around, a notification is a step of the unbounded
system. -/
theorem notify_step {build : Build} {timer : TimerId} {n : Notification}
    (hnonneg : 0 ≤ (s.timers timer).eventCount)
    (htotal : (s.timers timer).eventCount + n.expirations < 2 ^ 63) (hle : n.expirations ≤ intMax)
    (hstep : notify build s timer n = some next) :
    n.Reportable ∧ step build s (.handle timer (n.expirations - 1)) = some next := by
  unfold notify at hstep
  split at hstep
  · next number hhandler =>
      obtain ⟨hn, hstep⟩ := Option.ite_none_right_eq_some.mp hstep
      have hone := hn.one_le
      have hcount : n.counted (s.timers timer).eventCount =
          (s.timers timer).eventCount + toInt (n.expirations - 1 + 1) := by
        rw [(Notification.counted_eq_iff hn hnonneg htotal).mpr hle, Int.sub_add_cancel,
          toInt_of_range (by omega) hle]
      have henqueue : handleEnqueue64 build (.handler number) s timer n =
          handleEnqueue build (.handler number) s timer (n.expirations - 1) := by
        simp only [handleEnqueue64, handleEnqueue, hcount]
      refine ⟨hn, ?_⟩
      simp only [step, hhandler]
      rw [if_pos ⟨by omega, by omega⟩, ← hstep, Notification.overrunCount_eq hn hle, henqueue]
  · cases hstep

/-- What is held of a timer grows by notifications only. -/
theorem step_held (hinv : Inv s order) {timer : TimerId}
    (hnonneg : 0 ≤ (s.timers timer).eventCount) {action : Action}
    (hstep : step .nonZts s action = some next) :
    held timer next ≤ held timer s + action.entering timer := by
  by_cases hinit : ∀ number ok, action ≠ .php number (.init timer ok)
  · obtain ⟨⟨new, htrace, hkept⟩, -⟩ := step_flow hinv timer action hinit hstep
    obtain ⟨after, hnext⟩ := step_inv hinv action hstep
    have hpositive : ∀ count, .callback timer count ∈ new → 1 ≤ count := fun count hmem =>
      hnext.positive timer count (htrace ▸ List.mem_append_left _ hmem)
    have hpassed := (passed_bound hpositive 0).1
    omega
  · simp only [not_forall, ne_eq, not_not] at hinit
    obtain ⟨number, ok, rfl⟩ := hinit
    obtain ⟨-, hmove⟩ := Option.ite_none_right_eq_some.mp hstep
    obtain ⟨-, heq⟩ := Option.ite_none_right_eq_some.mp hmove
    have hcount : (next.timers timer).eventCount = 0 := by
      cases heq
      cases ok <;> simp [timerInit, State.setTimer, State.record]
    have hstack : next.stack = s.stack := by
      cases heq
      cases ok <;> rfl
    simp only [held, hcount, hstack, Action.entering]
    omega

/-- The callback is called with what was held. -/
theorem call_held {timer : TimerId} {count : Int} {rest : List Frame}
    (hstack : s.stack 0 = .deliver timer count :: rest)
    (hstep : step .nonZts s (.php 0 .call) = some next) (other : TimerId) :
    held other next = held other s - if timer = other then count else 0 := by
  obtain ⟨-, hmove⟩ := step_php hstep
  simp only [phpStep, hstack, Option.some.injEq] at hmove
  subst hmove
  simp only [held, hstack, inFlight, State.setStack, State.record, Function.update_self]
  omega

end Bounded

end Excimer.Timer
