import Excimer.Timer.Overrun
import Excimer.Timer.Timespec

/-!
The kqueue timer library, `timerlib_kqueue.c`. A timer has a kernel queue and a
handler thread while it runs. The queue delivers a one-shot expiration first,
and the handler thread then reconfigures it to the period.

The kernel, the clock and `pthread_create` are parameters: what their calls
return is an argument of the functions below.
-/

namespace Excimer.Timer.Kqueue

/-- `timerlib_timer_t`. No descriptor stands for a `kq` of -1. -/
structure TimerlibTimer where
  kq : Option Nat := none
  period : Timespec := ⟨0, 0⟩
  initial : Timespec := ⟨0, 0⟩
  lastFiredAt : Timespec := ⟨0, 0⟩
  handlerThread : Option Nat := none
  deriving DecidableEq, Repr

/-- What the calls in `timerlib_timer_start` return: `kqueue()`, the clock, the
configuring `kevent()` and `pthread_create()`. -/
structure StartCalls where
  kqueue : Option Nat
  now : Timespec
  kevent : Bool
  pthreadCreate : Option Nat
  deriving DecidableEq, Repr

namespace TimerlibTimer

/-- `timerlib_timer_start`, and whether it returns `TIMERLIB_SUCCESS`. -/
def start (t : TimerlibTimer) (period initial : Timespec) (calls : StartCalls) :
    TimerlibTimer × Bool :=
  let t := { t with period := period, initial := initial }
  match calls.kqueue with
  | none => (t, false)
  | some kq =>
      let t := { t with kq := some kq, lastFiredAt := calls.now }
      if calls.kevent then
        match calls.pthreadCreate with
        | none => (t, false)
        | some thread => ({ t with handlerThread := some thread }, true)
      else
        (t, false)

/-- `timerlib_timer_stop`. `close` and `pthread_join` succeed. -/
def stop (t : TimerlibTimer) : TimerlibTimer :=
  if t.kq = none then t else { t with period := ⟨0, 0⟩ }

/-- `timerlib_timer_get_time`, with the reading of the clock. -/
def getTime (t : TimerlibTimer) (now : Timespec) : Timespec :=
  (t.period.add t.lastFiredAt).subtract now

end TimerlibTimer

/-- What the blocking `kevent` in `timerlib_handle_timer_event` returns: -1 with
`EINTR`, with `EBADF` or with another error, or one event with its expiration
count, after which the clock is read. -/
inductive Wait where
  | interrupted
  | closed
  | failed
  | expired (count : Int) (now : Timespec)
  deriving DecidableEq, Repr

/-- What the handler thread does: a call of the blocking `kevent` returns, the
notify function is called, or the queue is configured to a period. -/
inductive Event where
  | wake (wait : Wait)
  | notify (overrun : Int)
  | configure (period : Timespec) (ok : Bool)
  deriving DecidableEq, Repr

inductive Result where
  | success
  | failure
  /-- `timerlib_abort` -/
  | abort
  deriving DecidableEq, Repr

/-- `timerlib_handle_timer_event` -/
def handleTimerEvent (t : TimerlibTimer) : Wait → TimerlibTimer × List Event × Result
  | .interrupted => (t, [.wake .interrupted], .success)
  | .closed => (t, [.wake .closed], .failure)
  | .failed => (t, [.wake .failed], .abort)
  | .expired count now =>
      ({ t with lastFiredAt := now },
        [.wake (.expired count now), .notify (Notification.kqueue count).overrunCount], .success)

/-- Where `timerlib_kqueue_handle` stands: it waits for the initial expiration or
in its loop, or it has ended. -/
inductive Phase where
  | initial
  | periodic
  | exited
  | aborted
  deriving DecidableEq, Repr

structure Handler where
  timer : TimerlibTimer
  phase : Phase
  /-- A history, oldest first. -/
  trace : List Event
  deriving DecidableEq, Repr

/-- The start of `timerlib_kqueue_handle`. -/
def Handler.start (t : TimerlibTimer) : Handler :=
  ⟨t, if t.initial.isZero then .periodic else .initial, []⟩

/-- `timerlib_kqueue_handle` from one return of the blocking `kevent` to the next
call of it, with the outcome of the reconfiguration. -/
def Handler.step (reconfigured : Bool) (h : Handler) (wait : Wait) : Option Handler :=
  match handleTimerEvent h.timer wait with
  | (t, events, result) =>
      match h.phase, result with
      | .exited, _ | .aborted, _ => none
      | _, .abort => some ⟨t, .aborted, h.trace ++ events⟩
      | _, .failure => some ⟨t, .exited, h.trace ++ events⟩
      | .periodic, .success => some ⟨t, .periodic, h.trace ++ events⟩
      | .initial, .success =>
          if t.period.isZero then
            some ⟨t, .exited, h.trace ++ events⟩
          else if reconfigured then
            some ⟨t, .periodic, h.trace ++ (events ++ [.configure t.period true])⟩
          else
            some ⟨t, .exited, h.trace ++ (events ++ [.configure t.period false])⟩

/-- `timerlib_handle_timer_event` returns `TIMERLIB_SUCCESS`. -/
def Wait.Continues : Wait → Prop
  | .interrupted | .expired _ _ => True
  | .closed | .failed => False

/-- What a return of `kevent` leads to. -/
inductive Outcome (reconfigured : Bool) (h : Handler) : Wait → Phase → List Event → Prop
  | abort (halive : h.phase = .initial ∨ h.phase = .periodic) :
      Outcome reconfigured h .failed .aborted []
  | close (halive : h.phase = .initial ∨ h.phase = .periodic) :
      Outcome reconfigured h .closed .exited []
  | loop {wait : Wait} (hwait : wait.Continues) (hphase : h.phase = .periodic) :
      Outcome reconfigured h wait .periodic []
  | done {wait : Wait} (hwait : wait.Continues) (hphase : h.phase = .initial)
      (hzero : h.timer.period.isZero = true) : Outcome reconfigured h wait .exited []
  | configure {wait : Wait} (hwait : wait.Continues) (hphase : h.phase = .initial)
      (hok : reconfigured = true) :
      Outcome reconfigured h wait .periodic [.configure h.timer.period true]
  | refuse {wait : Wait} (hwait : wait.Continues) (hphase : h.phase = .initial)
      (hok : reconfigured = false) :
      Outcome reconfigured h wait .exited [.configure h.timer.period false]

/-- The expiration count of an event that is delivered. -/
def Event.count : Event → Option Int
  | .wake (.expired count _) => some count
  | _ => none

def Event.overrun : Event → Option Int
  | .notify overrun => some overrun
  | _ => none

section Steps

variable {reconfigured : Bool} {h next final : Handler} {wait : Wait} {waits : List Wait}

theorem handleTimerEvent_period (t : TimerlibTimer) (wait : Wait) :
    (handleTimerEvent t wait).1.period = t.period := by
  cases wait <;> rfl

theorem step_alive (hstep : h.step reconfigured wait = some next) :
    h.phase = .initial ∨ h.phase = .periodic := by
  cases hphase : h.phase with
  | initial => exact Or.inl rfl
  | periodic => exact Or.inr rfl
  | exited | aborted => simp [Handler.step, hphase] at hstep

theorem step_outcome (hstep : h.step reconfigured wait = some next) :
    ∃ phase tail, next = ⟨(handleTimerEvent h.timer wait).1, phase,
        h.trace ++ ((handleTimerEvent h.timer wait).2.1 ++ tail)⟩ ∧
      Outcome reconfigured h wait phase tail := by
  have halive := step_alive hstep
  have hperiod := handleTimerEvent_period h.timer wait
  have hwait : (handleTimerEvent h.timer wait).2.2 = .success → wait.Continues := by
    cases wait <;> simp [handleTimerEvent, Wait.Continues]
  have hclosed : (handleTimerEvent h.timer wait).2.2 = .failure → wait = .closed := by
    cases wait <;> simp [handleTimerEvent]
  have hfailed : (handleTimerEvent h.timer wait).2.2 = .abort → wait = .failed := by
    cases wait <;> simp [handleTimerEvent]
  rcases hevent : handleTimerEvent h.timer wait with ⟨t, events, result⟩
  simp only [hevent] at hperiod hwait hclosed hfailed
  simp only [Handler.step, hevent] at hstep
  cases result with
  | abort =>
      obtain rfl := hfailed rfl
      have hnext : next = ⟨t, .aborted, h.trace ++ events⟩ := by
        rcases halive with hphase | hphase <;> simpa [hphase] using hstep.symm
      exact ⟨_, [], by rw [hnext, List.append_nil], .abort halive⟩
  | failure =>
      obtain rfl := hclosed rfl
      have hnext : next = ⟨t, .exited, h.trace ++ events⟩ := by
        rcases halive with hphase | hphase <;> simpa [hphase] using hstep.symm
      exact ⟨_, [], by rw [hnext, List.append_nil], .close halive⟩
  | success =>
      rcases halive with hphase | hphase
      · simp only [hphase, hperiod] at hstep
        split at hstep
        next hzero =>
          obtain rfl := Option.some.inj hstep
          exact ⟨_, [], by rw [List.append_nil], .done (hwait rfl) hphase hzero⟩
        next hzero =>
          split at hstep
          next hok =>
            obtain rfl := Option.some.inj hstep
            exact ⟨_, _, rfl, .configure (hwait rfl) hphase hok⟩
          next hok =>
            obtain rfl := Option.some.inj hstep
            exact ⟨_, _, rfl, .refuse (hwait rfl) hphase (Bool.eq_false_iff.mpr hok)⟩
      · simp only [hphase] at hstep
        obtain rfl := Option.some.inj hstep
        exact ⟨_, [], by rw [List.append_nil], .loop (hwait rfl) hphase⟩

/-- The counts that `kevent` has reported. -/
def counts (waits : List Wait) : List Int :=
  waits.filterMap fun wait => (Event.wake wait).count

theorem mem_counts {count : Int} : count ∈ counts waits ↔ ∃ now, .expired count now ∈ waits := by
  simp only [counts, List.mem_filterMap]
  constructor
  · rintro ⟨wait, hmem, hcount⟩
    cases wait with
    | expired other now =>
        obtain rfl := Option.some.inj hcount
        exact ⟨now, hmem⟩
    | interrupted | closed | failed => cases hcount
  · rintro ⟨now, hmem⟩
    exact ⟨_, hmem, rfl⟩

theorem Outcome.silent {phase : Phase} {tail : List Event}
    (houtcome : Outcome reconfigured h wait phase tail) :
    tail.filterMap Event.count = [] ∧ tail.filterMap Event.overrun = [] := by
  cases houtcome <;> exact ⟨rfl, rfl⟩

theorem step_counts (hstep : h.step reconfigured wait = some next) :
    next.trace.filterMap Event.count = h.trace.filterMap Event.count ++ counts [wait] ∧
      next.trace.filterMap Event.overrun = h.trace.filterMap Event.overrun ++
        (counts [wait]).map fun count => (Notification.kqueue count).overrunCount := by
  obtain ⟨phase, tail, rfl, houtcome⟩ := step_outcome hstep
  obtain ⟨hcount, hoverrun⟩ := houtcome.silent
  simp only [List.filterMap_append, hcount, hoverrun, List.append_nil]
  cases wait <;> exact ⟨rfl, rfl⟩

/-- The notify function is called once for each event, with its overrun. -/
theorem run_counts (hrun : Transition.run (Handler.step reconfigured) h waits = some final) :
    final.trace.filterMap Event.count = h.trace.filterMap Event.count ++ counts waits ∧
      final.trace.filterMap Event.overrun = h.trace.filterMap Event.overrun ++
        (counts waits).map fun count => (Notification.kqueue count).overrunCount := by
  induction waits generalizing h with
  | nil =>
      obtain rfl := Option.some.inj hrun
      simp [counts]
  | cons wait rest ih =>
      obtain ⟨next, hstep, hrest⟩ := Transition.run_cons hrun
      obtain ⟨hcount, hoverrun⟩ := step_counts hstep
      have hsplit : counts (wait :: rest) = counts [wait] ++ counts rest := by
        rw [counts, counts, counts, ← List.filterMap_append, List.singleton_append]
      obtain ⟨hcounts, hoverruns⟩ := ih hrest
      rw [hcounts, hoverruns, hcount, hoverrun, hsplit, List.map_append]
      simp only [List.append_assoc, and_self]

end Steps

/-- An expiration event has been delivered. -/
def Delivered (trace : List Event) : Prop :=
  ∃ count now, .wake (.expired count now) ∈ trace

/-- What the handler thread owes: every expiration is passed on once and in
order, the queue is not configured to the period before the initial expiration
was delivered, and the thread does not end early. -/
structure Protocol (h : Handler) : Prop where
  notified : h.trace.filterMap Event.overrun = (h.trace.filterMap Event.count).map (· - 1)
  configured : ∀ before period ok after, h.trace = before ++ .configure period ok :: after →
    Delivered before
  exited : h.phase = .exited → .wake .closed ∈ h.trace ∨
    (∃ period, .configure period false ∈ h.trace) ∨
      h.timer.period.isZero = true ∧ Delivered h.trace

section Protocol

variable {reconfigured : Bool} {h next final : Handler} {wait : Wait} {waits : List Wait}

/-- The first event was delivered, and the thread has not ended early. -/
structure Started (h : Handler) : Prop where
  phase : h.phase ≠ .initial
  delivered : ∃ count now rest, h.trace = .wake (.expired count now) :: rest
  exited : h.phase = .exited → .wake .closed ∈ h.trace ∨
    (∃ period, .configure period false ∈ h.trace) ∨ h.timer.period.isZero = true

theorem Started.step (hstarted : Started h) (hstep : h.step reconfigured wait = some next) :
    Started next := by
  obtain ⟨count, now, rest, hfirst⟩ := hstarted.delivered
  obtain ⟨phase, tail, rfl, houtcome⟩ := step_outcome hstep
  have hdelivered : ∃ count' now' rest', h.trace ++ ((handleTimerEvent h.timer wait).2.1 ++ tail) =
      .wake (.expired count' now') :: rest' := by
    rw [hfirst]
    exact ⟨count, now, _, rfl⟩
  cases houtcome with
  | abort _ => exact ⟨by simp, hdelivered, by simp⟩
  | close _ => exact ⟨by simp, hdelivered, fun _ => Or.inl (by simp [handleTimerEvent])⟩
  | loop _ _ => exact ⟨by simp, hdelivered, by simp⟩
  | done _ hphase _ | configure _ hphase _ | refuse _ hphase _ => exact absurd hphase hstarted.phase

theorem Started.protocol (hstarted : Started h)
    (hnotified : h.trace.filterMap Event.overrun = (h.trace.filterMap Event.count).map (· - 1)) :
    Protocol h := by
  obtain ⟨count, now, rest, hfirst⟩ := hstarted.delivered
  refine ⟨hnotified, ?_, ?_⟩
  · intro before period ok after hsplit
    rw [hfirst] at hsplit
    cases before with
    | nil => cases (List.cons.inj hsplit).1
    | cons event before =>
        obtain ⟨rfl, -⟩ := List.cons.inj hsplit
        exact ⟨count, now, by simp⟩
  · intro hexited
    rcases hstarted.exited hexited with hclosed | hrefused | hzero
    · exact Or.inl hclosed
    · exact Or.inr (Or.inl hrefused)
    · exact Or.inr (Or.inr ⟨hzero, count, now, by simp [hfirst]⟩)

/-- The reaction to a first event that is an expiration. -/
theorem start_expired {t : TimerlibTimer} (hinitial : t.initial.isZero = false) {count : Int}
    {now : Timespec}
    (hstep : (Handler.start t).step reconfigured (.expired count now) = some next) :
    Started next := by
  obtain ⟨phase, tail, rfl, houtcome⟩ := step_outcome hstep
  have hphase : (Handler.start t).phase = .initial := by simp [Handler.start, hinitial]
  cases houtcome with
  | loop _ hother => rw [hphase] at hother; cases hother
  | done _ _ hzero =>
      exact ⟨by simp, ⟨count, now, _, rfl⟩, fun _ => Or.inr (Or.inr hzero)⟩
  | configure _ _ _ => exact ⟨by simp, ⟨count, now, _, rfl⟩, by simp⟩
  | refuse _ _ _ =>
      exact ⟨by simp, ⟨count, now, _, rfl⟩,
        fun _ => Or.inr (Or.inl ⟨(Handler.start t).timer.period, by simp⟩)⟩

theorem run_ended (hended : h.phase = .exited ∨ h.phase = .aborted)
    (hrun : Transition.run (Handler.step reconfigured) h waits = some final) : final = h := by
  cases waits with
  | nil => exact (Option.some.inj hrun).symm
  | cons wait rest =>
      obtain ⟨next, hstep, -⟩ := Transition.run_cons hrun
      simp only [Handler.step] at hstep
      rcases hended with hphase | hphase <;> simp [hphase] at hstep

theorem run_extends (hrun : Transition.run (Handler.step reconfigured) h waits = some final) :
    h.trace <+: final.trace := by
  apply Transition.run_invariant (fun other => h.trace <+: other.trace) _ (List.prefix_refl _) hrun
  intro mid wait next hmid hstep
  obtain ⟨phase, tail, rfl, -⟩ := step_outcome hstep
  exact hmid.trans (List.prefix_append _ _)

/-- After an interruption the thread takes the initial expiration for delivered. -/
theorem start_interrupted {t : TimerlibTimer} (hinitial : t.initial.isZero = false)
    (hstep : (Handler.start t).step reconfigured .interrupted = some next)
    (hrun : Transition.run (Handler.step reconfigured) next waits = some final) :
    ¬Protocol final := by
  intro hprotocol
  have hphase : (Handler.start t).phase = .initial := by simp [Handler.start, hinitial]
  have hextends := run_extends hrun
  obtain ⟨phase, tail, rfl, houtcome⟩ := step_outcome hstep
  have hearly {period : Timespec} {ok : Bool}
      (hconfigured : [.wake .interrupted, .configure period ok] <+: final.trace) : False := by
    obtain ⟨rest, hrest⟩ := hconfigured
    obtain ⟨count, now, hmem⟩ := hprotocol.configured [.wake .interrupted] period ok rest hrest.symm
    simp at hmem
  cases houtcome with
  | loop _ hother => rw [hphase] at hother; cases hother
  | done _ _ _ =>
      obtain rfl := run_ended (Or.inl rfl) hrun
      rcases hprotocol.exited rfl with hclosed | ⟨period, hrefused⟩ | ⟨-, count, now, hmem⟩
      · simp [Handler.start, handleTimerEvent] at hclosed
      · simp [Handler.start, handleTimerEvent] at hrefused
      · simp [Handler.start, handleTimerEvent] at hmem
  | configure _ _ _ => exact hearly hextends
  | refuse _ _ _ => exact hearly hextends

/-- A thread that ends with its first event has nothing to pass on. -/
theorem start_ended {t : TimerlibTimer} {wait : Wait} (hwait : wait = .closed ∨ wait = .failed)
    (hstep : (Handler.start t).step reconfigured wait = some next)
    (hrun : Transition.run (Handler.step reconfigured) next waits = some final) :
    Protocol final := by
  have hnext : next.trace = [.wake wait] ∧
      (next.phase = .exited ∧ wait = .closed ∨ next.phase = .aborted) := by
    obtain ⟨phase, tail, rfl, houtcome⟩ := step_outcome hstep
    cases houtcome with
    | abort _ => exact ⟨rfl, Or.inr rfl⟩
    | close _ => exact ⟨rfl, Or.inl ⟨rfl, rfl⟩⟩
    | loop hmore _ | done hmore _ _ | configure hmore _ _ | refuse hmore _ _ =>
        rcases hwait with rfl | rfl <;> cases hmore
  obtain ⟨htrace, hphase⟩ := hnext
  obtain rfl := run_ended (hphase.imp_left And.left) hrun
  refine ⟨by rw [htrace]; rcases hwait with rfl | rfl <;> rfl, ?_, ?_⟩
  · intro before period ok after hsplit
    have hmem : Event.configure period ok ∈ before ++ .configure period ok :: after := by simp
    rw [← hsplit, htrace] at hmem
    simp at hmem
  · intro hexited
    rcases hphase with ⟨-, rfl⟩ | haborted
    · exact Or.inl (by simp [htrace])
    · rw [hexited] at haborted
      cases haborted

theorem overrunCount_eq_iff {count : Int} (hcount : (Notification.kqueue count).Reportable) :
    (Notification.kqueue count).overrunCount = count - 1 ↔ count - 1 ≤ intMax := by
  obtain ⟨hlow, hhigh⟩ := hcount
  simp only [Notification.overrunCount, toInt, intMax]
  rw [Int.bmod_def, Int.bmod_def]
  split <;> split <;> omega

theorem notified_iff {t : TimerlibTimer}
    (hcounts : ∀ count ∈ counts waits, (Notification.kqueue count).Reportable)
    (hrun : Transition.run (Handler.step reconfigured) (Handler.start t) waits = some final) :
    final.trace.filterMap Event.overrun = (final.trace.filterMap Event.count).map (· - 1) ↔
      ∀ count ∈ counts waits, count - 1 ≤ intMax := by
  obtain ⟨hcount, hoverrun⟩ := run_counts hrun
  have hempty : (Handler.start t).trace = [] := rfl
  rw [hcount, hoverrun, hempty, List.filterMap_nil, List.filterMap_nil, List.nil_append,
    List.nil_append, List.map_inj_left]
  exact forall₂_congr fun count hmem => overrunCount_eq_iff (hcounts count hmem)

end Protocol

/-- The handler thread keeps its protocol exactly if the wait for the initial
expiration is not interrupted and every overrun fits into an `int`. -/
theorem handler_protocol_iff {t : TimerlibTimer} (hinitial : t.initial.isZero = false)
    {reconfigured : Bool} {waits : List Wait} {h : Handler}
    (hcounts : ∀ count now, .expired count now ∈ waits → (Notification.kqueue count).Reportable)
    (hrun : Transition.run (Handler.step reconfigured) (Handler.start t) waits = some h) :
    Protocol h ↔ waits.head? ≠ some .interrupted ∧
      ∀ count now, .expired count now ∈ waits → count - 1 ≤ intMax := by
  have hnotified := notified_iff (fun count hmem => by
    obtain ⟨now, hwait⟩ := mem_counts.mp hmem
    exact hcounts count now hwait) hrun
  have hbound : (∀ count ∈ counts waits, count - 1 ≤ intMax) ↔
      ∀ count now, .expired count now ∈ waits → count - 1 ≤ intMax := by
    simp only [mem_counts, forall_exists_index]
  rw [← hbound, ← hnotified]
  cases waits with
  | nil =>
      obtain rfl := Option.some.inj hrun
      have hphase : (Handler.start t).phase = .initial := by simp [Handler.start, hinitial]
      refine ⟨fun _ => ⟨by simp, rfl⟩, fun _ => ⟨rfl, by simp [Handler.start], ?_⟩⟩
      intro hexited
      rw [hphase] at hexited
      cases hexited
  | cons wait rest =>
      obtain ⟨next, hstep, hrest⟩ := Transition.run_cons hrun
      cases wait with
      | interrupted =>
          exact ⟨fun hprotocol => absurd hprotocol (start_interrupted hinitial hstep hrest),
            fun hcond => absurd rfl hcond.1⟩
      | closed =>
          have hprotocol := start_ended (Or.inl rfl) hstep hrest
          exact ⟨fun _ => ⟨by simp, hprotocol.notified⟩, fun _ => hprotocol⟩
      | failed =>
          have hprotocol := start_ended (Or.inr rfl) hstep hrest
          exact ⟨fun _ => ⟨by simp, hprotocol.notified⟩, fun _ => hprotocol⟩
      | expired count now =>
          have hstarted : Started h := Transition.run_invariant Started
            (fun _ _ _ hkept hnext => hkept.step hnext) (start_expired hinitial hstep) hrest
          exact ⟨fun hprotocol => ⟨by simp, hprotocol.notified⟩,
            fun hcond => hstarted.protocol hcond.2⟩

/-- A timer with an initial delay of a quarter of a second and a period of half a
second, as the delayed periodic timer of the tests. -/
def delayedPeriodic : TimerlibTimer where
  kq := some 5
  period := ⟨0, 500000000⟩
  initial := ⟨0, 250000000⟩
  lastFiredAt := ⟨100, 0⟩
  handlerThread := some 1

/-- The wait in the loop is interrupted once, and three expirations are merged. -/
def quietStart : List Wait :=
  [.expired 1 ⟨100, 250000000⟩, .interrupted, .expired 3 ⟨101, 750000000⟩, .closed]

theorem handler_protocol_iff_quietStart :
    ∃ h, Transition.run (Handler.step true) (Handler.start delayedPeriodic) quietStart = some h ∧
      h.phase = .exited ∧ Protocol h := by
  obtain ⟨h, hrun, hphase⟩ := Transition.run_check (Handler.step true)
    (Handler.start delayedPeriodic) quietStart (fun h => decide (h.phase = .exited)) (by decide)
  refine ⟨h, hrun, of_decide_eq_true hphase, ?_⟩
  have hcounts : ∀ count now, .expired count now ∈ quietStart → count = 1 ∨ count = 3 := by
    intro count now hmem
    simp [quietStart] at hmem
    exact hmem.imp And.left And.left
  refine (handler_protocol_iff (by decide) ?_ hrun).mpr ⟨by decide, ?_⟩
  · intro count now hmem
    rcases hcounts count now hmem with rfl | rfl <;> decide
  · intro count now hmem
    rcases hcounts count now hmem with rfl | rfl <;> decide

/-- A signal interrupts the wait for the initial expiration. -/
theorem interrupted_start_reconfigures :
    ∃ h, Transition.run (Handler.step true) (Handler.start delayedPeriodic) [.interrupted] =
        some h ∧
      h.phase = .periodic ∧
      h.trace = [.wake .interrupted, .configure ⟨0, 500000000⟩ true] ∧ ¬Protocol h := by
  obtain ⟨h, hrun, hcheck⟩ := Transition.run_check (Handler.step true)
    (Handler.start delayedPeriodic) [.interrupted]
    (fun h => decide (h.phase = .periodic ∧
      h.trace = [.wake .interrupted, .configure ⟨0, 500000000⟩ true])) (by decide)
  obtain ⟨hphase, htrace⟩ := of_decide_eq_true hcheck
  refine ⟨h, hrun, hphase, htrace, fun hprotocol => ?_⟩
  obtain ⟨count, now, hmem⟩ := hprotocol.configured [.wake .interrupted] _ true [] htrace
  simp at hmem

end Excimer.Timer.Kqueue
