import Excimer.Profiler.Rotation
import Excimer.Timer.Overrun
import Mathlib.Algebra.Order.BigOperators.Group.List

/-!
Timers and profilers together. The interrupt loop calls `ExcimerProfiler_event`
with the count that it has dequeued, and that count becomes the `event_count` of
a log entry. So the entries count expiries exactly as long as the notifications
do.
-/

namespace Excimer.Profiler

open Timer (TimerId Notification intMax held)

/-- The timers of a thread, and the profiler that each of them may belong to. -/
structure Sampling where
  timers : Timer.State
  profilers : TimerId → Profiler

namespace Sampling

inductive Action where
  /-- The operating system reports expiries of a timer. -/
  | notify (timer : TimerId) (n : Notification)
  /-- The interrupt loop calls `ExcimerProfiler_event`. -/
  | event (stack : List ExecuteData) (now : UInt64)
  /-- Any other step of the timers. -/
  | timers (action : Timer.Action)
  /-- Any other step of a profiler. -/
  | profiler (timer : TimerId) (action : Profiler.Action)

def step (s : Sampling) : Action → Option Sampling
  | .notify timer n =>
      (Timer.notify .nonZts s.timers timer n).map fun next => { s with timers := next }
  | .event stack now =>
      match s.timers.stack 0 with
      | .deliver timer count :: _ =>
          (Timer.step .nonZts s.timers (.php 0 .call)).bind fun next =>
            ((s.profilers timer).step (.event stack count now)).map fun p =>
              { timers := next, profilers := Function.update s.profilers timer p }
      | _ => none
  | .timers (.handle _ _) => none
  | .timers action =>
      (Timer.step .nonZts s.timers action).map fun next => { s with timers := next }
  | .profiler _ (.event _ _ _) => none
  | .profiler timer action =>
      ((s.profilers timer).step action).map fun p =>
        { s with profilers := Function.update s.profilers timer p }

/-- A thread without timers, and profilers with their first logs. -/
def initial (defaultMaxDepth : Int) (now : UInt64) : Sampling where
  timers := Timer.State.initial
  profilers := fun _ => Profiler.new defaultMaxDepth now

/-- The expiries that an action reports. -/
def Action.expirations : Action → Int
  | .notify _ n => n.expirations
  | _ => 0

/-- The expiries of a whole history. -/
def total (actions : List Action) : Int := (actions.map Action.expirations).sum

/-- The sum of the counts that a profiler has recorded. -/
def recordedCount (p : Profiler) : Int := ((stamps p.logs).map Prod.fst).sum

/-- All counts are positive, and what is recorded and held of a timer leaves
room for what is still to come. -/
structure Inv (s : Sampling) (upcoming : Int) : Prop where
  timers : Timer.Reachable .nonZts s.timers
  profilers : ∀ timer, Profiler.Inv (s.profilers timer)
  positive : ∀ timer, ∀ stamp ∈ stamps (s.profilers timer).logs, 1 ≤ stamp.1
  room : ∀ timer, recordedCount (s.profilers timer) + held timer s.timers + upcoming < 2 ^ 63

section Steps

variable {s next : Sampling} {upcoming : Int}

theorem sum_counts_nonneg {recorded : List (Int × UInt64)}
    (hpositive : ∀ stamp ∈ recorded, 1 ≤ stamp.1) : 0 ≤ (recorded.map Prod.fst).sum := by
  apply List.sum_nonneg
  intro count hmem
  obtain ⟨stamp, hstamp, rfl⟩ := List.mem_map.mp hmem
  have hone := hpositive stamp hstamp
  omega

/-- The count of a timer is bounded with what is held of it. -/
theorem Inv.room_for (hinv : Inv s upcoming) (timer : TimerId) :
    0 ≤ (s.timers.timers timer).eventCount ∧
      (s.timers.timers timer).eventCount + upcoming < 2 ^ 63 := by
  obtain ⟨order, htimers⟩ := Timer.reachable_inv hinv.timers
  have hflight := htimers.inFlight_nonneg timer
  have hrecorded := sum_counts_nonneg (hinv.positive timer)
  have hroom := hinv.room timer
  simp only [recordedCount, held] at hroom
  exact ⟨Timer.reachable_nonneg hinv.timers timer, by omega⟩

theorem profiler_stamps {p q : Profiler} (hinv : Profiler.Inv p) {action : Profiler.Action}
    (hstep : p.step action = some q) :
    Profiler.Inv q ∧ stamps q.logs = stamps p.logs ++ arrivals [action] := by
  obtain ⟨before, log, hat, heffect⟩ := hinv.effect hstep
  exact ⟨heffect.inv hinv hat, heffect.stamps hinv hat⟩

/-- A step of the timers in which nothing is recorded. -/
theorem Inv.timers_step (hinv : Inv s upcoming) {action : Timer.Action} {t : Timer.State}
    (hstep : Timer.step .nonZts s.timers action = some t) {later : Int}
    (hentering : ∀ timer, action.entering timer + later ≤ upcoming) :
    Inv { s with timers := t } later := by
  obtain ⟨order, htimers⟩ := Timer.reachable_inv hinv.timers
  refine ⟨hinv.timers.step_from hstep, hinv.profilers, hinv.positive, fun timer => ?_⟩
  have hheld := Timer.step_held htimers (hinv.room_for timer).1 hstep
  have hroom := hinv.room timer
  have hbound := hentering timer
  show recordedCount (s.profilers timer) + held timer t + later < 2 ^ 63
  omega

theorem Inv.notify (hinv : Inv s upcoming) {timer : TimerId} {n : Notification} {later : Int}
    (hle : n.expirations ≤ intMax) (hlater : 0 ≤ later)
    (hupcoming : n.expirations + later = upcoming)
    (hstep : step s (.notify timer n) = some next) : Inv next later := by
  obtain ⟨t, ht, rfl⟩ := Option.map_eq_some_iff.mp hstep
  obtain ⟨hnonneg, hroom⟩ := hinv.room_for timer
  obtain ⟨hn, hcore⟩ := Timer.notify_step hnonneg (by omega) hle ht
  have hone := hn.one_le
  apply hinv.timers_step hcore
  intro other
  simp only [Timer.Action.entering]
  split <;> omega

/-- A step that concerns the profiler of one timer. -/
theorem Inv.replace (hinv : Inv s upcoming) {timers : Timer.State}
    (hreach : Timer.Reachable .nonZts timers) {timer : TimerId} {p : Profiler}
    (hprofiler : Profiler.Inv p) (hpositive : ∀ stamp ∈ stamps p.logs, 1 ≤ stamp.1)
    (hself : recordedCount p + held timer timers =
      recordedCount (s.profilers timer) + held timer s.timers)
    (hothers : ∀ other, other ≠ timer → held other timers = held other s.timers) :
    Inv { s with timers, profilers := Function.update s.profilers timer p } upcoming := by
  refine ⟨hreach, ?_, ?_, ?_⟩
  · intro other
    by_cases heq : other = timer
    · subst heq
      simpa using hprofiler
    · simpa [heq] using hinv.profilers other
  · intro other
    by_cases heq : other = timer
    · subst heq
      simpa using hpositive
    · simpa [heq] using hinv.positive other
  · intro other
    have hroom := hinv.room other
    by_cases heq : other = timer
    · subst heq
      simp only [Function.update_self]
      omega
    · simp only [Function.update_of_ne heq, hothers other heq]
      exact hroom

/-- The count moves from the interrupt loop into a log. -/
theorem Inv.event (hinv : Inv s upcoming) {stack : List ExecuteData} {now : UInt64}
    (hstep : step s (.event stack now) = some next) : Inv next upcoming := by
  simp only [step] at hstep
  split at hstep
  · next timer count rest hstack =>
      obtain ⟨t, ht, hstep⟩ := Option.bind_eq_some_iff.mp hstep
      obtain ⟨p, hp, rfl⟩ := Option.map_eq_some_iff.mp hstep
      obtain ⟨order, htimers⟩ := Timer.reachable_inv hinv.timers
      have hone : 1 ≤ count := (htimers.dequeued timer count (by rw [hstack]; rfl)).1
      obtain ⟨hprofiler, hstamps⟩ := profiler_stamps (hinv.profilers timer) hp
      have hadded : stamps p.logs = stamps (s.profilers timer).logs ++ [(count, now)] := hstamps
      have hheld := Timer.call_held hstack ht
      refine hinv.replace (hinv.timers.step_from ht) hprofiler ?_ ?_ ?_
      · rw [hadded]
        intro stamp hmem
        rcases List.mem_append.mp hmem with hold | hlast
        · exact hinv.positive timer stamp hold
        · obtain rfl := List.mem_singleton.mp hlast
          exact hone
      · simp only [recordedCount, hadded, List.map_append, List.sum_append, List.map_singleton,
          List.sum_singleton, hheld, if_true]
        omega
      · intro other hne
        rw [hheld, if_neg (Ne.symm hne), Int.sub_zero]
  · cases hstep

/-- A step of a profiler that records nothing. -/
theorem Inv.profiler (hinv : Inv s upcoming) {timer : TimerId} {action : Profiler.Action}
    (hquiet : arrivals [action] = []) {p : Profiler}
    (hp : (s.profilers timer).step action = some p) :
    Inv { s with profilers := Function.update s.profilers timer p } upcoming := by
  obtain ⟨hprofiler, hstamps⟩ := profiler_stamps (hinv.profilers timer) hp
  rw [hquiet, List.append_nil] at hstamps
  refine hinv.replace hinv.timers hprofiler ?_ ?_ fun _ _ => rfl
  · rw [hstamps]
    exact hinv.positive timer
  · rw [recordedCount, hstamps]
    rfl

theorem step_timers {action : Timer.Action} (hstep : step s (.timers action) = some next) :
    (∀ timer, action.entering timer = 0) ∧
      ∃ t, Timer.step .nonZts s.timers action = some t ∧ next = { s with timers := t } := by
  cases action with
  | handle timer overrunCount => cases hstep
  | _ =>
      simp only [step] at hstep
      obtain ⟨t, ht, rfl⟩ := Option.map_eq_some_iff.mp hstep
      exact ⟨fun _ => rfl, t, ht, rfl⟩

theorem step_inv {action : Action} {later : Int}
    (hinv : Inv s (action.expirations + later)) (hle : action.expirations ≤ intMax)
    (hlater : 0 ≤ later) (hstep : step s action = some next) : Inv next later := by
  cases action with
  | notify timer n => exact hinv.notify hle hlater rfl hstep
  | event stack now =>
      have hzero : (Action.event stack now).expirations + later = later := Int.zero_add later
      rw [hzero] at hinv
      exact hinv.event hstep
  | timers action =>
      have hzero : (Action.timers action).expirations + later = later := Int.zero_add later
      rw [hzero] at hinv
      obtain ⟨hquiet, t, ht, rfl⟩ := step_timers hstep
      exact hinv.timers_step ht (by simp [hquiet])
  | profiler timer action =>
      have hzero : (Action.profiler timer action).expirations + later = later := Int.zero_add later
      rw [hzero] at hinv
      cases action with
      | event stack eventCount now => cases hstep
      | _ =>
          obtain ⟨p, hp, rfl⟩ := Option.map_eq_some_iff.mp hstep
          exact hinv.profiler rfl hp

end Steps

section Runs

variable {s final : Sampling} {actions : List Action}

theorem expirations_nonneg {action : Action} {next : Sampling} (hstep : step s action = some next) :
    0 ≤ action.expirations := by
  cases action with
  | notify timer n =>
      obtain ⟨t, ht, -⟩ := Option.map_eq_some_iff.mp hstep
      unfold Timer.notify at ht
      split at ht
      · obtain ⟨hn, -⟩ := Option.ite_none_right_eq_some.mp ht
        have hone := hn.one_le
        simp only [Action.expirations]
        omega
      · cases ht
  | _ => exact Int.le_refl 0

theorem total_nonneg (hrun : Transition.run step s actions = some final) : 0 ≤ total actions := by
  induction actions generalizing s with
  | nil => exact Int.le_refl 0
  | cons action rest ih =>
      obtain ⟨next, hstep, hrest⟩ := Transition.run_cons hrun
      have hhead := expirations_nonneg hstep
      have htail := ih hrest
      simp only [total, List.map_cons, List.sum_cons] at htail ⊢
      omega

theorem run_inv (hle : ∀ action ∈ actions, action.expirations ≤ intMax)
    (hinv : Inv s (total actions)) (hrun : Transition.run step s actions = some final) :
    Inv final 0 := by
  induction actions generalizing s with
  | nil =>
      obtain rfl := Option.some.inj hrun
      exact hinv
  | cons action rest ih =>
      obtain ⟨next, hstep, hrest⟩ := Transition.run_cons hrun
      have hnext : Inv next (total rest) :=
        step_inv hinv (hle action List.mem_cons_self) (total_nonneg hrest) hstep
      exact ih (fun other hmem => hle other (List.mem_cons_of_mem _ hmem)) hnext hrest

theorem initial_inv {defaultMaxDepth : Int} {now : UInt64} (htotal : total actions < 2 ^ 63) :
    Inv (initial defaultMaxDepth now) (total actions) where
  timers := .start rfl
  profilers := fun _ => Profiler.new_inv defaultMaxDepth now
  positive := by
    intro timer stamp hmem
    cases hmem
  room := by
    intro timer
    have hrecorded : recordedCount (Profiler.new defaultMaxDepth now) = 0 := rfl
    have hheld : held timer Timer.State.initial = 0 := rfl
    simp only [initial, hrecorded, hheld]
    omega

end Runs

theorem length_le_sum {counts : List Int} (hone : ∀ count ∈ counts, 1 ≤ count) :
    (counts.length : Int) ≤ counts.sum := by
  induction counts with
  | nil => exact Int.le_refl 0
  | cons count rest ih =>
      have hhead := hone count List.mem_cons_self
      have htail := ih fun other hmem => hone other (List.mem_cons_of_mem _ hmem)
      simp only [List.length_cons, List.sum_cons]
      omega

theorem eventCount_le_recorded {p : Profiler} (hinv : Profiler.Inv p)
    (hpositive : ∀ stamp ∈ stamps p.logs, 1 ≤ stamp.1) {log : Log} (hlog : log ∈ p.logs) :
    log.eventCount ≤ recordedCount p := by
  obtain ⟨before, later, hlogs⟩ := List.append_of_mem hlog
  have hsplit : stamps p.logs = stamps before ++ (stamps [log] ++ stamps later) := by
    simp [hlogs, stamps]
  rw [hsplit] at hpositive
  have hbefore : 0 ≤ ((stamps before).map Prod.fst).sum :=
    sum_counts_nonneg fun stamp hmem => hpositive stamp (by simp [hmem])
  have hlater : 0 ≤ ((stamps later).map Prod.fst).sum :=
    sum_counts_nonneg fun stamp hmem => hpositive stamp (by simp [hmem])
  have hown : ((stamps [log]).map Prod.fst).sum = log.eventCount := by
    rw [(hinv.sound log hlog).eventCount]
    simp [stamps, Function.comp_def]
  rw [recordedCount, hsplit, List.map_append, List.map_append, List.sum_append, List.sum_append,
    hown]
  omega

/-- A notification is counted exactly if its expiries fit into an `int`. When all
notifications of a history do and their total stays below 2^63, every entry of a
log counts at least one event, so a log has at most as many entries as events,
and no count wraps around. -/
theorem accounting_exact_iff (defaultMaxDepth : Int) (now : UInt64) :
    (∀ (n : Notification) (eventCount : Int), n.Reportable → 0 ≤ eventCount →
      eventCount + n.expirations < 2 ^ 63 →
      (n.counted eventCount = eventCount + n.expirations ↔ n.expirations ≤ intMax)) ∧
    ∀ (actions : List Action) (s : Sampling),
      Transition.run step (initial defaultMaxDepth now) actions = some s →
      (∀ timer n, .notify timer n ∈ actions → n.expirations ≤ intMax) →
      total actions < 2 ^ 63 →
      ∀ timer, ∀ log ∈ (s.profilers timer).logs,
        (∀ entry ∈ log.entries, 1 ≤ entry.eventCount) ∧
          (log.getSize : Int) ≤ log.eventCount ∧ log.eventCount < 2 ^ 63 := by
  refine ⟨fun n eventCount hn hlow htotal => Notification.counted_eq_iff hn hlow htotal, ?_⟩
  intro actions s hrun hnotify htotal timer log hlog
  have hle : ∀ action ∈ actions, action.expirations ≤ intMax := by
    intro action hmem
    have hzero : (0 : Int) ≤ intMax := by decide
    cases action with
    | notify timer n => exact hnotify timer n hmem
    | _ => exact hzero
  have hinv := run_inv hle (initial_inv htotal) hrun
  have hone : ∀ entry ∈ log.entries, 1 ≤ entry.eventCount := by
    intro entry hentry
    exact hinv.positive timer (entry.eventCount, entry.timestamp) (List.mem_map.mpr
      ⟨entry, List.mem_flatMap.mpr ⟨log, hlog, hentry⟩, rfl⟩)
  have hcounts : ∀ count ∈ log.entries.map Log.Entry.eventCount, 1 ≤ count := by
    intro count hmem
    obtain ⟨entry, hentry, rfl⟩ := List.mem_map.mp hmem
    exact hone entry hentry
  have hlength := length_le_sum hcounts
  rw [List.length_map, ← ((hinv.profilers timer).sound log hlog).eventCount] at hlength
  refine ⟨hone, hlength, ?_⟩
  obtain ⟨order, htimers⟩ := Timer.reachable_inv hinv.timers
  have hflight := htimers.inFlight_nonneg timer
  have hpending := Timer.reachable_nonneg hinv.timers timer
  have hroom := hinv.room timer
  have hrecorded := eventCount_le_recorded (hinv.profilers timer) (hinv.positive timer) hlog
  simp only [held] at hroom
  omega

/-- One notification of timer 1, and the event that it leads to. -/
def oneEvent (n : Notification) : List Action :=
  [.timers (.php 0 (.init 1 true)), .notify 1 n, .timers (.store 1), .timers (.php 0 .interrupt),
   .timers (.php 0 .dequeue), .event [Log.plainCall (Bytes.ofString "f") 3] 10]

theorem accounting_exact_iff_oneEvent :
    ∃ s, Transition.run step (initial 0 5) (oneEvent (.posix 2147483646)) = some s ∧
      total (oneEvent (.posix 2147483646)) = 2147483647 ∧
      (s.profilers 1).logs.map Log.eventCount = [2147483647] ∧
      ∀ log ∈ (s.profilers 1).logs, (log.getSize : Int) ≤ log.eventCount := by
  obtain ⟨s, hrun, hcheck⟩ := Transition.run_check step (initial 0 5)
    (oneEvent (.posix 2147483646))
    (fun s => (s.profilers 1).logs.map Log.eventCount == [2147483647]) (by decide)
  refine ⟨s, hrun, by decide, eq_of_beq hcheck, fun log hlog => ?_⟩
  have hnotify : ∀ timer n, .notify timer n ∈ oneEvent (.posix 2147483646) →
      n.expirations ≤ intMax := by
    intro timer n hmem
    simp only [oneEvent, List.mem_cons, Action.notify.injEq, reduceCtorEq, List.not_mem_nil,
      or_false, false_or] at hmem
    obtain ⟨-, rfl⟩ := hmem
    decide
  exact ((accounting_exact_iff 0 5).2 _ s hrun hnotify (by decide) 1 log hlog).2.1

/-- The largest overrun that a signal can report. -/
theorem accounting_wraps :
    Notification.Reportable (.posix intMax) ∧
      Notification.expirations (.posix intMax) = 2147483648 ∧
      Notification.counted (.posix intMax) 0 = -2147483648 ∧
      ∃ s log, Transition.run step (initial 0 5) (oneEvent (.posix intMax)) = some s ∧
        total (oneEvent (.posix intMax)) < 2 ^ 63 ∧ (s.profilers 1).logs = [log] ∧
        log.entries.map Log.Entry.eventCount = [-2147483648] ∧
        log.getSize = 1 ∧ log.eventCount = -2147483648 := by
  refine ⟨by decide, by decide, by decide, ?_⟩
  obtain ⟨s, hrun, hcheck⟩ := Transition.run_check step (initial 0 5) (oneEvent (.posix intMax))
    (fun s => (s.profilers 1).logs.map (fun log =>
      (log.entries.map Log.Entry.eventCount, log.getSize, log.eventCount)) ==
        [([-2147483648], 1, -2147483648)]) (by decide)
  obtain ⟨log, hlogs, hlog⟩ := List.map_eq_singleton_iff.mp (eq_of_beq hcheck)
  simp only [Prod.mk.injEq] at hlog
  exact ⟨s, log, hrun, by decide, hlogs, hlog⟩

end Sampling

end Excimer.Profiler
