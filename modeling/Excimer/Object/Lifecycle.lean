import Excimer.Lib.Lists
import Excimer.Object.Basic
import Excimer.Timer.Linkage

/-!
The life of a timer inside of its object. `timers_active` counts the valid
timers of live objects, only valid timers run, and only valid timers of live
objects are linked, through failed initialisations, repeated ones and releases
in every order, with handler threads and interrupts in between.

The argument is the same for both builds, which differ in why an invalid timer
is unlinked. That part is the hypothesis `Tidy` of the timer subsystem.
-/

namespace Excimer.Object

open Timer (Build TimerId Timespec Frame Tidy OnPendingList effectiveInitial)

/-- The timer whose `excimer_timer_destroy` is running. -/
def destroyTarget : List Frame → Option TimerId
  | .destroy timer _ :: _ => some timer
  | _ => none

/-- One between the decrement of `timers_active` in `excimer_timer_destroy` and
the end of that function. -/
def leaving : List Frame → Nat
  | .destroy _ .timerlib :: _ => 0
  | .destroy _ _ :: _ => 1
  | _ => 0

def Callbacks (frames : List Frame) : Prop :=
  ∀ frame ∈ frames, ∃ timer, frame = .callback timer

theorem Callbacks.target_eq {frames : List Frame} (h : Callbacks frames) :
    destroyTarget frames = none ∧ leaving frames = 0 := by
  cases frames with
  | nil => exact ⟨rfl, rfl⟩
  | cons top rest =>
      obtain ⟨timer, rfl⟩ := h top List.mem_cons_self
      exact ⟨rfl, rfl⟩

theorem Callbacks.tail {frames : List Frame} (h : Callbacks frames) : Callbacks frames.tail :=
  fun frame hmem => h frame (List.mem_of_mem_tail hmem)

theorem callbacks_of_runsPhp {core : Timer.State} (hphp : core.runsPhp 0 = true)
    (hbelow : Callbacks (core.stack 0).tail) : Callbacks (core.stack 0) := by
  unfold Timer.State.runsPhp at hphp
  cases hstack : core.stack 0 with
  | nil => simp [Callbacks]
  | cons top rest =>
      rw [hstack] at hphp hbelow
      intro frame hmem
      rcases List.mem_cons.mp hmem with rfl | hrest
      · cases frame <;> simp_all
      · exact hbelow frame hrest

theorem runsPhp_of_callbacks {core : Timer.State} (h : Callbacks (core.stack 0)) :
    core.runsPhp 0 = true := by
  unfold Timer.State.runsPhp
  cases hstack : core.stack 0 with
  | nil => rfl
  | cons top rest =>
      obtain ⟨timer, rfl⟩ := h top (by simp [hstack])
      rfl

section Core

variable {build : Build} {core next : Timer.State}

/-- A step of the subsystem that changes no timer's flags and neither begins
nor ends an `excimer_timer_destroy`. -/
structure Passive (build : Build) (core next : Timer.State) : Prop where
  timers : ∀ timer, (next.timers timer).isValid = (core.timers timer).isValid ∧
    (next.timers timer).isRunning = (core.timers timer).isRunning ∧
    (next.timers timer).tls = (core.timers timer).tls
  active : (next.tls (build.tls (.php 0))).timersActive =
    (core.tls (build.tls (.php 0))).timersActive
  target : destroyTarget (next.stack 0) = destroyTarget (core.stack 0)
  outgoing : leaving (next.stack 0) = leaving (core.stack 0)
  below : Callbacks (next.stack 0).tail

theorem withLinks_active (tls other : Timer.Thread) (links : CircularList.Links TimerId) :
    ((core.withLinks tls links).tls other).timersActive = (core.tls other).timersActive := by
  by_cases heq : other = tls <;> simp [Timer.State.withLinks, heq]

/-- A passive step that leaves the stack alone. -/
theorem Passive.of_stack (hbelow : Callbacks (core.stack 0).tail)
    (hstack : next.stack 0 = core.stack 0)
    (htimers : ∀ timer, (next.timers timer).isValid = (core.timers timer).isValid ∧
      (next.timers timer).isRunning = (core.timers timer).isRunning ∧
      (next.timers timer).tls = (core.timers timer).tls)
    (hactive : (next.tls (build.tls (.php 0))).timersActive =
      (core.tls (build.tls (.php 0))).timersActive) : Passive build core next :=
  ⟨htimers, hactive, by rw [hstack], by rw [hstack], hstack ▸ hbelow⟩

/-- A passive step of the interrupt function. -/
theorem Passive.of_frames {frames : List Frame} (hstack : next.stack 0 = frames)
    (hold : destroyTarget (core.stack 0) = none ∧ leaving (core.stack 0) = 0)
    (hnew : destroyTarget frames = none ∧ leaving frames = 0)
    (hbelow : Callbacks frames.tail)
    (htimers : ∀ timer, (next.timers timer).isValid = (core.timers timer).isValid ∧
      (next.timers timer).isRunning = (core.timers timer).isRunning ∧
      (next.timers timer).tls = (core.timers timer).tls)
    (hactive : (next.tls (build.tls (.php 0))).timersActive =
      (core.tls (build.tls (.php 0))).timersActive) : Passive build core next where
  timers := htimers
  active := hactive
  target := by rw [hstack, hnew.1, hold.1]
  outgoing := by rw [hstack, hnew.2, hold.2]
  below := hstack ▸ hbelow

theorem handle_passive (hbelow : Callbacks (core.stack 0).tail) {timer : TimerId}
    {overrunCount : Int} (hstep : Timer.step build core (.handle timer overrunCount) = some next) :
    Passive build core next := by
  cases Timer.step_moves hstep with
  | handle _ _ henqueue =>
      obtain ⟨_, henqueue⟩ := Option.ite_none_right_eq_some.mp henqueue
      obtain ⟨links, hlinks, rfl⟩ := Option.map_eq_some_iff.mp henqueue
      refine Passive.of_stack hbelow rfl ?_ (withLinks_active ..)
      intro other
      by_cases heq : other = timer <;> simp [Timer.State.withLinks, Timer.State.setTimer, heq]

theorem pendingDequeue_flags {thread : Timer.Thread}
    {result : Timer.State × Option (TimerId × Int)}
    (hresult : Timer.pendingDequeue build thread core = some result) :
    (∀ timer, (result.1.timers timer).isValid = (core.timers timer).isValid ∧
      (result.1.timers timer).isRunning = (core.timers timer).isRunning ∧
      (result.1.timers timer).tls = (core.timers timer).tls) ∧
    ∀ tls, (result.1.tls tls).timersActive = (core.tls tls).timersActive := by
  obtain ⟨_, hresult⟩ := Option.ite_none_right_eq_some.mp hresult
  obtain ⟨pair, _, rfl⟩ := Option.map_eq_some_iff.mp hresult
  split
  · exact ⟨fun _ => ⟨rfl, rfl, rfl⟩, fun tls => withLinks_active ..⟩
  · refine ⟨?_, fun tls => withLinks_active ..⟩
    intro other
    next timer _ =>
      by_cases heq : other = timer <;> simp [Timer.State.withLinks, Timer.State.setTimer, heq]

/-- The steps of the interrupt function are passive. -/
theorem loop_passive (hbelow : Callbacks (core.stack 0).tail) {move : Timer.Move}
    (hmove : background (.php 0 move) = true)
    (hstep : Timer.phpStep build 0 core move = some next) : Passive build core next := by
  cases Timer.phpStep_moves hstep with
  | interrupt hphp =>
      have hcallbacks := callbacks_of_runsPhp hphp hbelow
      exact Passive.of_frames (Timer.State.setStack_stack _ 0 _) hcallbacks.target_eq
        ⟨rfl, rfl⟩ hcallbacks (fun _ => ⟨rfl, rfl, rfl⟩) rfl
  | @dequeue rest result hstack hdequeue =>
      rw [hstack] at hbelow
      obtain ⟨htimers, hactive⟩ := pendingDequeue_flags hdequeue
      have hold : destroyTarget (core.stack 0) = none ∧ leaving (core.stack 0) = 0 := by
        rw [hstack]
        exact ⟨rfl, rfl⟩
      have hrest : Callbacks rest := hbelow
      split
      · exact Passive.of_frames (Timer.State.setStack_stack _ 0 _) hold hrest.target_eq hrest.tail
          htimers (hactive _)
      · exact Passive.of_frames (Timer.State.setStack_stack _ 0 _) hold ⟨rfl, rfl⟩ hrest
          htimers (hactive _)
  | call hstack =>
      rw [hstack] at hbelow
      refine Passive.of_frames (Timer.State.setStack_stack core 0 _) ?_ ⟨rfl, rfl⟩ hbelow
        (fun _ => ⟨rfl, rfl, rfl⟩) rfl
      rw [hstack]
      exact ⟨rfl, rfl⟩
  | ret hstack =>
      rw [hstack] at hbelow
      refine Passive.of_frames (Timer.State.setStack_stack _ 0 _) ?_ ⟨rfl, rfl⟩ hbelow
        (fun _ => ⟨rfl, rfl, rfl⟩) rfl
      rw [hstack]
      exact ⟨rfl, rfl⟩
  | _ => cases hmove

/-- The steps that no object asks for are passive. -/
theorem background_passive (hbelow : Callbacks (core.stack 0).tail) {action : Timer.Action}
    (hbackground : background action = true)
    (hstep : Timer.step build core action = some next) : Passive build core next := by
  cases Timer.step_moves hstep with
  | handle => exact handle_passive hbelow hstep
  | store => exact Passive.of_stack hbelow rfl (fun _ => ⟨rfl, rfl, rfl⟩) rfl
  | raise => exact Passive.of_stack hbelow rfl (fun _ => ⟨rfl, rfl, rfl⟩) rfl
  | @php number move _ _ hmove =>
      obtain rfl : number = 0 := by
        simp only [background, Bool.and_eq_true, beq_iff_eq] at hbackground
        exact hbackground.1
      exact loop_passive hbelow hbackground hmove

/-- A call of the API that at most writes the flag `is_running` of a timer. -/
structure Flagged (core next : Timer.State) (timer : TimerId) (running : Bool) : Prop where
  stack : next.stack = core.stack
  tls : next.tls = core.tls
  timers : ∀ other, (next.timers other).isValid = (core.timers other).isValid ∧
    (next.timers other).tls = (core.timers other).tls
  others : ∀ other, other ≠ timer →
    (next.timers other).isRunning = (core.timers other).isRunning
  self : (next.timers timer).isRunning = running

theorem Flagged.record {core next : Timer.State} {timer : TimerId} {running : Bool}
    (h : Flagged core next timer running) (event : Timer.Event) :
    Flagged core (next.record event) timer running :=
  ⟨h.stack, h.tls, h.timers, h.others, h.self⟩

theorem flagged_self (core : Timer.State) (timer : TimerId) :
    Flagged core core timer (core.timers timer).isRunning :=
  ⟨rfl, rfl, fun _ => ⟨rfl, rfl⟩, fun _ _ => rfl, rfl⟩

theorem flagged_setRunning (core : Timer.State) (timer : TimerId) (running : Bool) :
    Flagged core (core.setRunning timer running) timer running := by
  refine ⟨rfl, rfl, ?_, ?_, ?_⟩
  · intro other
    by_cases heq : other = timer <;>
      simp [Timer.State.setRunning, Timer.State.setTimer, heq]
  · intro other hne
    simp [Timer.State.setRunning, Timer.State.setTimer, hne]
  · simp [Timer.State.setRunning, Timer.State.setTimer]

/-- Whether `excimer_timer_start` gets as far as `timerlib_timer_start` and that
succeeds. -/
def starts (t : Timer.ExcimerTimer) (period initial : Timespec) (ok : Bool) : Bool :=
  t.isValid && !(effectiveInitial period initial).isZero && ok

theorem timerStart_flagged (core : Timer.State) (timer : TimerId) (period initial : Timespec)
    (ok : Bool) :
    Flagged core (Timer.timerStart core timer period initial ok) timer
      (starts (core.timers timer) period initial ok || (core.timers timer).isRunning) := by
  unfold Timer.timerStart
  split
  case isTrue hinvalid =>
    simpa [starts, hinvalid] using (flagged_self core timer).record _
  case isFalse hvalid =>
    split
    case isTrue hzero =>
      simpa [starts, hzero] using (flagged_self core timer).record _
    case isFalse hnonzero =>
      split
      case isTrue hok =>
        simpa [starts, hvalid, hnonzero, hok] using
          (flagged_setRunning core timer true).record _
      case isFalse hfail =>
        simp only [starts, hfail, Bool.and_false, Bool.false_or]
        exact flagged_self core timer

/-- Whether `excimer_timer_stop` gets as far as `timerlib_timer_stop` and that
succeeds. -/
def stops (t : Timer.ExcimerTimer) (ok : Bool) : Bool :=
  t.isValid && t.isRunning && ok

theorem timerStop_flagged (core : Timer.State) (timer : TimerId) (ok : Bool) :
    Flagged core (Timer.timerStop core timer ok) timer
      (!stops (core.timers timer) ok && (core.timers timer).isRunning) := by
  unfold Timer.timerStop
  split
  case isTrue hinvalid =>
    simpa [stops, hinvalid] using (flagged_self core timer).record _
  case isFalse hvalid =>
    split
    case isTrue hrunning =>
      split
      case isTrue hok =>
        simpa [stops, hvalid, hrunning, hok] using
          (flagged_setRunning core timer false).record _
      case isFalse hfail =>
        simp only [stops, hfail, Bool.and_false, Bool.not_false, Bool.true_and]
        exact flagged_self core timer
    case isFalse hstopped =>
      simpa [stops, hstopped] using (flagged_self core timer).record (.stop timer)

/-- The effect of `excimer_timer_init` on a timer. -/
structure Initialised (build : Build) (core next : Timer.State) (timer : TimerId)
    (ok : Bool) : Prop where
  stack : next.stack = core.stack
  others : ∀ other, other ≠ timer → next.timers other = core.timers other
  valid : (next.timers timer).isValid = ok
  running : (next.timers timer).isRunning = false
  owner : (next.timers timer).tls = some (build.tls (.php 0))
  active : (next.tls (build.tls (.php 0))).timersActive =
    (core.tls (build.tls (.php 0))).timersActive + if ok then 1 else 0

theorem timerInit_initialised (build : Build) (core : Timer.State) (timer : TimerId)
    (ok : Bool) : Initialised build core (Timer.timerInit build 0 core timer ok) timer ok := by
  refine ⟨?_, ?_, ?_, ?_, ?_, ?_⟩
  · cases ok <;> rfl
  · intro other hne
    cases ok <;> simp [Timer.timerInit, Timer.State.setTimer, Timer.State.record, hne]
  all_goals cases ok <;> simp [Timer.timerInit, Timer.State.setTimer, Timer.State.record]

/-- Before its first call, `excimer_timer_destroy` only clears `is_running`. -/
theorem timerDestroy_flagged {timer : TimerId} (hvalid : (core.timers timer).isValid = true)
    (howner : (core.timers timer).tls = some (build.tls (.php 0))) :
    (Timer.timerDestroy build 0 core timer).stack 0 = .destroy timer .timerlib :: core.stack 0 ∧
      Flagged (core.setStack 0 (.destroy timer .timerlib :: core.stack 0))
        (Timer.timerDestroy build 0 core timer) timer false := by
  have heq : Timer.timerDestroy build 0 core timer =
      (core.setStack 0 (.destroy timer .timerlib :: core.stack 0)).setRunning timer false := by
    rw [Timer.timerDestroy, if_neg (by simp [hvalid]), if_neg (by simp [howner])]
    rfl
  rw [heq]
  exact ⟨Timer.State.setStack_stack core 0 _, flagged_setRunning _ timer false⟩

/-- The critical section of `excimer_timer_destroy` is passive. -/
theorem destroyNext_passive {timer : TimerId} {rest : List Frame} {pc : Timer.DestroyPc}
    (hstack : core.stack 0 = .destroy timer pc :: rest) (hbelow : Callbacks rest)
    (hfirst : pc ≠ .timerlib) (hlast : pc ≠ .finish)
    (hstep : Timer.destroyNext build 0 core timer rest pc = some next) :
    Passive build core next := by
  have hframe (pc' : Timer.DestroyPc) (hnext : next.stack 0 = .destroy timer pc' :: rest)
      (hnew : pc' ≠ .timerlib) :
      destroyTarget (next.stack 0) = destroyTarget (core.stack 0) ∧
        leaving (next.stack 0) = leaving (core.stack 0) ∧ Callbacks (next.stack 0).tail := by
    rw [hnext, hstack]
    cases pc <;> cases pc' <;> simp_all [destroyTarget, leaving]
  cases pc with
  | timerlib => exact absurd rfl hfirst
  | lock =>
      obtain ⟨_, heq⟩ := Option.ite_none_right_eq_some.mp hstep
      cases heq
      obtain ⟨htarget, hleaving, htail⟩ :=
        hframe .remove (Timer.State.setStack_stack _ 0 _) (by simp)
      refine ⟨fun _ => ⟨rfl, rfl, rfl⟩, ?_, htarget, hleaving, htail⟩
      simp [Timer.State.setStack, Timer.State.setMutex]
  | remove =>
      obtain ⟨links, _, rfl⟩ := Option.map_eq_some_iff.mp hstep
      obtain ⟨htarget, hleaving, htail⟩ :=
        hframe .unlock (Timer.State.setStack_stack _ 0 _) (by simp)
      exact ⟨fun _ => ⟨rfl, rfl, rfl⟩, withLinks_active .., htarget, hleaving, htail⟩
  | unlock =>
      cases hstep
      obtain ⟨htarget, hleaving, htail⟩ :=
        hframe .finish (Timer.State.setStack_stack _ 0 _) (by simp)
      refine ⟨fun _ => ⟨rfl, rfl, rfl⟩, ?_, htarget, hleaving, htail⟩
      simp [Timer.State.setStack, Timer.State.setMutex]
  | finish => exact absurd rfl hlast

/-- The last two assignments of `excimer_timer_destroy`. -/
structure Finished (core next : Timer.State) (timer : TimerId) (rest : List Frame) : Prop where
  stack : next.stack 0 = rest
  valid : (next.timers timer).isValid = false
  running : (next.timers timer).isRunning = (core.timers timer).isRunning
  others : ∀ other, other ≠ timer → next.timers other = core.timers other
  tls : next.tls = core.tls

theorem destroyNext_finished {timer : TimerId} {rest : List Frame}
    (hstep : Timer.destroyNext build 0 core timer rest .finish = some next) :
    Finished core next timer rest := by
  cases hstep
  refine ⟨?_, ?_, ?_, ?_, rfl⟩
  · simp [Timer.State.record]
  · simp [Timer.State.record, Timer.State.setStack, Timer.State.setTimer]
  · simp [Timer.State.record, Timer.State.setStack, Timer.State.setTimer]
  · intro other hne
    simp [Timer.State.record, Timer.State.setStack, Timer.State.setTimer, hne]

theorem Finished.runsPhp {timer : TimerId} {rest : List Frame}
    (hfinished : Finished core next timer rest) (hrest : Callbacks rest) :
    next.runsPhp 0 = true := by
  apply runsPhp_of_callbacks
  rw [hfinished.stack]
  exact hrest

end Core

def State.timersActive (build : Build) (s : State) : UInt64 :=
  (s.core.tls (build.tls (.php 0))).timersActive

/-- The number of live objects whose timer is valid. -/
def State.validCount (s : State) : Nat :=
  s.live.countP fun timer => (s.core.timers timer).isValid

theorem State.beginStart_of_mem {s : State} {timer : TimerId} (hmem : timer ∈ s.live) :
    s.beginStart timer = { s with calls := s.calls + 1 } := by
  rw [State.beginStart, State.touch_of_mem hmem]

theorem State.stopRunning_runsPhp (s : State) (timer : TimerId) (ok : Bool) :
    (s.stopRunning timer ok).core.runsPhp 0 = s.core.runsPhp 0 := by
  have hstack := (timerStop_flagged s.core timer ok).stack
  unfold State.stopRunning State.stopObject State.stopTimer
  dsimp only
  repeat' split
  all_goals simp [Timer.State.runsPhp, State.settime, State.setKernel, hstack]

theorem State.initTimer_runsPhp (build : Build) (s : State) (kind : Kind) (timer : TimerId)
    (ok : Bool) : (s.initTimer build kind timer ok).core.runsPhp 0 = s.core.runsPhp 0 := by
  have hstack := (timerInit_initialised build s.core timer ok).stack
  simp [Timer.State.runsPhp, State.initTimer, hstack]

theorem State.stopRunning_live (s : State) (timer : TimerId) (ok : Bool) :
    (s.stopRunning timer ok).live = s.live := by
  unfold State.stopRunning State.stopObject State.stopTimer
  dsimp only
  repeat' split
  all_goals rfl

theorem State.start_eq (build : Build) (s : State) (timer : TimerId) (outcome : Outcome) :
    s.start build timer outcome = (s.stopRunning timer outcome.stop).startObject build
      ((s.stopRunning timer outcome.stop).objects timer).kind timer outcome := by
  unfold State.start
  dsimp only
  split
  case h_1 hkind =>
    rw [hkind]
    rfl
  case h_2 hkind =>
    rw [hkind]
    rfl

/-- What holds of the objects whenever a property of the subsystem below does. -/
structure Inv (build : Build) (P : Timer.State → Prop) (s : State) : Prop where
  core : P s.core
  below : Callbacks (s.core.stack 0).tail
  owner : ∀ timer, (s.core.timers timer).isValid = true →
    (s.core.timers timer).tls = some (build.tls (.php 0))
  running : ∀ timer, (s.core.timers timer).isRunning = true →
    (s.core.timers timer).isValid = true
  destroying : ∀ timer, destroyTarget (s.core.stack 0) = some timer →
    (s.core.timers timer).isValid = true ∧ (s.core.timers timer).isRunning = false
  waiting : s.pending.map Rest.timer = destroyTarget (s.core.stack 0)
  nodup : s.live.Nodup
  address : ∀ timer ∈ s.live, 0 < timer ∧ timer < 2 ^ 64
  live : ∀ timer, (s.core.timers timer).isValid = true → timer ∈ s.live
  active : (s.core.tls (build.tls (.php 0))).timersActive.toNat + leaving (s.core.stack 0) =
    s.validCount
  clobbered : s.clobbered = []
  dangling : s.dangling = []

namespace Inv

variable {build : Build} {P : Timer.State → Prop} {s t : State}

theorem callbacks (h : Inv build P s) (hphp : s.core.runsPhp 0 = true) :
    Callbacks (s.core.stack 0) :=
  callbacks_of_runsPhp hphp h.below

theorem below_of_stack (h : Inv build P s) {frame : Frame} {rest : List Frame}
    (hstack : s.core.stack 0 = frame :: rest) : Callbacks rest := by
  have hbelow := h.below
  rw [hstack] at hbelow
  exact hbelow

/-- No call waits for `excimer_timer_destroy` while PHP code runs. -/
theorem pending_none (h : Inv build P s) (hphp : s.core.runsPhp 0 = true) :
    s.pending = none := by
  have hwaiting := h.waiting
  rw [(h.callbacks hphp).target_eq.1] at hwaiting
  exact Option.map_eq_none_iff.mp hwaiting

/-- The configuration of the objects, the kernel and the number of calls do not
matter here. -/
theorem congr (h : Inv build P s) (hcore : t.core = s.core) (hlive : t.live = s.live)
    (hpending : t.pending = s.pending) (hclobbered : t.clobbered = s.clobbered)
    (hdangling : t.dangling = s.dangling) : Inv build P t := by
  have hcount : t.validCount = s.validCount := by
    rw [State.validCount, hlive, hcore]
    rfl
  exact ⟨hcore ▸ h.core, hcore ▸ h.below, hcore ▸ h.owner, hcore ▸ h.running,
    hcore ▸ h.destroying, hcore ▸ hpending ▸ h.waiting, hlive ▸ h.nodup, hlive ▸ h.address,
    hcore ▸ hlive ▸ h.live, hcount ▸ hcore ▸ h.active, hclobbered ▸ h.clobbered,
    hdangling ▸ h.dangling⟩

/-- A step of the subsystem that keeps the valid timers and the frame of a
running `excimer_timer_destroy`. -/
theorem recore (h : Inv build P s) {next : Timer.State} (hP : P next)
    (hbelow : Callbacks (next.stack 0).tail)
    (htarget : destroyTarget (next.stack 0) = destroyTarget (s.core.stack 0))
    (hleaving : leaving (next.stack 0) = leaving (s.core.stack 0))
    (htimers : ∀ timer, (next.timers timer).isValid = (s.core.timers timer).isValid ∧
      ((s.core.timers timer).isValid = true →
        (next.timers timer).tls = (s.core.timers timer).tls))
    (hrunning : ∀ timer, (next.timers timer).isRunning = true →
      (s.core.timers timer).isValid = true ∧ destroyTarget (s.core.stack 0) ≠ some timer)
    (hactive : (next.tls (build.tls (.php 0))).timersActive =
      (s.core.tls (build.tls (.php 0))).timersActive) :
    Inv build P { s with core := next } where
  core := hP
  below := hbelow
  owner timer hvalid := by
    have hold : (s.core.timers timer).isValid = true := (htimers timer).1.symm.trans hvalid
    exact ((htimers timer).2 hold).trans (h.owner timer hold)
  running timer hrun := (htimers timer).1.trans (hrunning timer hrun).1
  destroying timer htop := by
    have htop : destroyTarget (s.core.stack 0) = some timer := htarget.symm.trans htop
    refine ⟨(htimers timer).1.trans (h.destroying timer htop).1, ?_⟩
    rw [Bool.eq_false_iff]
    exact fun hrun => (hrunning timer hrun).2 htop
  waiting := h.waiting.trans htarget.symm
  nodup := h.nodup
  address := h.address
  live timer hvalid := h.live timer ((htimers timer).1 ▸ hvalid)
  active := by
    have hcount : State.validCount { s with core := next } = s.validCount :=
      List.countP_congr fun timer _ => by simp only [(htimers timer).1]
    rw [hcount, hactive, hleaving]
    exact h.active
  clobbered := h.clobbered
  dangling := h.dangling

theorem passive (h : Inv build P s) {next : Timer.State} (hP : P next)
    (hpassive : Passive build s.core next) : Inv build P { s with core := next } := by
  refine h.recore hP hpassive.below hpassive.target hpassive.outgoing ?_ ?_ hpassive.active
  · exact fun timer => ⟨(hpassive.timers timer).1, fun _ => (hpassive.timers timer).2.2⟩
  · intro timer hrun
    rw [(hpassive.timers timer).2.1] at hrun
    refine ⟨h.running timer hrun, ?_⟩
    intro htarget
    exact Bool.false_ne_true ((h.destroying timer htarget).2.symm.trans hrun)

theorem flagged (h : Inv build P s) (hphp : s.core.runsPhp 0 = true) {next : Timer.State}
    (hP : P next) {timer : TimerId} {running : Bool} (hflagged : Flagged s.core next timer running)
    (hvalid : running = true → (s.core.timers timer).isValid = true) :
    Inv build P { s with core := next } := by
  have hstack : next.stack 0 = s.core.stack 0 := congrFun hflagged.stack 0
  refine h.recore hP (hstack ▸ h.below) (by rw [hstack]) (by rw [hstack])
    (fun other => (hflagged.timers other).imp id fun htls _ => htls) ?_ (by rw [hflagged.tls])
  intro other hrun
  rw [(h.callbacks hphp).target_eq.1]
  refine ⟨?_, by simp⟩
  by_cases heq : other = timer
  · subst heq
    exact hvalid (hflagged.self.symm.trans hrun)
  · rw [hflagged.others other heq] at hrun
    exact h.running other hrun

theorem set_object (h : Inv build P s) {timer : TimerId} (hmem : timer ∈ s.live) (object : Obj) :
    Inv build P (s.setObject timer object) := by
  rw [State.setObject, State.touch_of_mem hmem]
  exact h.congr rfl rfl rfl rfl rfl

theorem settime (h : Inv build P s) (timer : TimerId) (armed : Option Arming) :
    Inv build P (s.settime timer armed) :=
  h.congr rfl rfl rfl rfl rfl

/-- There are fewer objects than addresses. -/
theorem count_lt (h : Inv build P s) : s.live.length < 2 ^ 64 :=
  h.nodup.length_lt_of_range (by decide) h.address

/-- A successful initialisation adds one to both sides of the count, and the
counter has room for it. -/
theorem init_count (h : Inv build P s) (hphp : s.core.runsPhp 0 = true) {timer : TimerId}
    (hmem : timer ∈ s.live) (hinvalid : (s.core.timers timer).isValid = false)
    {next : Timer.State} {ok : Bool} (hinit : Initialised build s.core next timer ok) :
    (next.tls (build.tls (.php 0))).timersActive.toNat + leaving (next.stack 0) =
      s.live.countP fun timer => (next.timers timer).isValid := by
  have hactive := h.active
  rw [(h.callbacks hphp).target_eq.2] at hactive
  rw [congrFun hinit.stack 0, (h.callbacks hphp).target_eq.2, hinit.active]
  cases ok with
  | false =>
      have hcount : s.live.countP (fun timer => (next.timers timer).isValid) = s.validCount := by
        apply List.countP_congr
        intro other _
        by_cases heq : other = timer
        · simp [heq, hinit.valid, hinvalid]
        · rw [hinit.others other heq]
      simpa [hcount] using hactive
  | true =>
      have hcount : s.live.countP (fun timer => (next.timers timer).isValid) =
          s.validCount + 1 := by
        refine h.nodup.countP_insert hmem ?_ hinvalid hinit.valid
        intro other hne
        rw [hinit.others other hne]
      have hroom : s.validCount + 1 < 2 ^ 64 := by
        have hle : s.live.countP (fun timer => (next.timers timer).isValid) ≤ s.live.length :=
          List.countP_le_length
        have hlt := h.count_lt
        omega
      rw [hcount, if_pos rfl, UInt64.toNat_add, UInt64.toNat_one, Nat.mod_eq_of_lt (by omega)]
      omega

/-- `timerlib_timer_destroy` returns. The timer is still valid, so the counter
is not zero. -/
theorem destroy_timerlib (h : Inv build P s) {timer : TimerId} {rest : List Frame}
    (hstack : s.core.stack 0 = .destroy timer .timerlib :: rest) {next : Timer.State}
    (hP : P next)
    (hstep : Timer.destroyNext build 0 s.core timer rest .timerlib = some next) :
    Inv build P { s with core := next } := by
  have hactive := h.active
  have hbelow := h.below
  have hwaiting := h.waiting
  rw [hstack] at hactive hbelow hwaiting
  have hself := h.destroying timer (by rw [hstack]; rfl)
  have hpositive : 0 < s.validCount :=
    List.countP_pos_iff.mpr ⟨timer, h.live timer hself.1, hself.1⟩
  simp only [Timer.destroyNext] at hstep
  split at hstep
  case h_1 => cases hstep
  case h_2 =>
    cases hstep
    refine ⟨hP, ?_, h.owner, h.running, ?_, ?_, h.nodup, h.address, h.live, ?_, h.clobbered,
      h.dangling⟩
    · rw [Timer.State.setStack_stack]
      exact hbelow
    · intro other htarget
      rw [Timer.State.setStack_stack] at htarget
      obtain rfl : timer = other := Option.some.inj htarget
      exact hself
    · rw [Timer.State.setStack_stack]
      exact hwaiting
    · rw [Timer.State.setStack_stack]
      simp only [Timer.State.setStack, Function.update_self]
      change _ + 1 = s.validCount
      change _ + 0 = s.validCount at hactive
      have hone : (1 : UInt64) ≤ (s.core.tls (build.tls (.php 0))).timersActive := by
        rw [UInt64.le_iff_toNat_le, UInt64.toNat_one]
        omega
      rw [UInt64.toNat_sub_of_le _ _ hone, UInt64.toNat_one]
      omega

/-- The end of `excimer_timer_destroy`, before the call that waited for it goes
on. -/
theorem destroy_finish (h : Inv build P s) {timer : TimerId} {rest : List Frame}
    (hstack : s.core.stack 0 = .destroy timer .finish :: rest) {next : Timer.State}
    (hP : P next) (hfinished : Finished s.core next timer rest) :
    Inv build P { s with core := next, pending := none } := by
  have hactive := h.active
  have hbelow := h.below
  rw [hstack] at hactive hbelow
  have hcallbacks : Callbacks rest := hbelow
  have hself := h.destroying timer (by rw [hstack]; rfl)
  have hne {other : TimerId} (hother : (next.timers other).isValid = true) : other ≠ timer := by
    rintro rfl
    exact Bool.false_ne_true (hfinished.valid.symm.trans hother)
  refine ⟨hP, ?_, ?_, ?_, ?_, ?_, h.nodup, h.address, ?_, ?_, h.clobbered, h.dangling⟩
  · rw [hfinished.stack]
    exact hcallbacks.tail
  · intro other hother
    have hsame := hfinished.others other (hne hother)
    rw [hsame] at hother ⊢
    exact h.owner other hother
  · intro other hrun
    by_cases heq : other = timer
    · subst heq
      rw [hfinished.running, hself.2] at hrun
      cases hrun
    · rw [hfinished.others other heq] at hrun ⊢
      exact h.running other hrun
  · intro other htarget
    rw [hfinished.stack, hcallbacks.target_eq.1] at htarget
    cases htarget
  · rw [hfinished.stack, hcallbacks.target_eq.1]
    rfl
  · intro other hother
    rw [hfinished.others other (hne hother)] at hother
    exact h.live other hother
  · have hcount : s.validCount = s.live.countP (fun other => (next.timers other).isValid) + 1 := by
      refine h.nodup.countP_insert (h.live timer hself.1) ?_ hfinished.valid hself.1
      intro other hother
      rw [hfinished.others other hother]
    change _ + 1 = s.validCount at hactive
    rw [hfinished.stack, hcallbacks.target_eq.2, hfinished.tls]
    change _ = s.live.countP fun other => (next.timers other).isValid
    omega

section Steps

variable (htidy : Tidy build P)

include htidy

theorem warn (h : Inv build P s) (message : String) : Inv build P (s.warn message) :=
  h.passive (htidy.warn message h.core)
    (Passive.of_stack h.below rfl (fun _ => ⟨rfl, rfl, rfl⟩) rfl)

/-- The property below holds after every call of the API. -/
theorem api_step (h : Inv build P s) (move : Timer.Move) {next : Timer.State}
    (hmove : Timer.phpStep build 0 s.core move = some next) : P next := by
  have hstep : Timer.step build s.core (.php 0 move) = some next := by
    simp [Timer.step, htidy.php, hmove]
  exact htidy.step h.core rfl hstep

theorem start_timer (h : Inv build P s) (hphp : s.core.runsPhp 0 = true) (timer : TimerId)
    (ok : Bool) : Inv build P (s.startTimer timer ok) := by
  set object := s.objects timer
  have hP : P (Timer.timerStart s.core timer object.period object.initial ok) :=
    h.api_step htidy (.start timer object.period object.initial ok)
      (by simp [Timer.phpStep, hphp])
  have hinv := h.flagged hphp hP
    (timerStart_flagged s.core timer object.period object.initial ok) (by
    intro hrun
    rcases Bool.or_eq_true_iff.mp hrun with hstarts | hrunning
    · simp only [starts, Bool.and_eq_true] at hstarts
      exact hstarts.1.1
    · exact h.running timer hrunning)
  unfold State.startTimer
  dsimp only
  split
  · exact hinv.settime timer _
  · exact hinv

theorem stop_timer (h : Inv build P s) (hphp : s.core.runsPhp 0 = true) (timer : TimerId)
    (ok : Bool) : Inv build P (s.stopTimer timer ok) := by
  have hP : P (Timer.timerStop s.core timer ok) :=
    h.api_step htidy (.stop timer ok) (by simp [Timer.phpStep, hphp])
  have hinv := h.flagged hphp hP (timerStop_flagged s.core timer ok)
    (fun hrun => h.running timer (Bool.and_eq_true_iff.mp hrun).2)
  unfold State.stopTimer
  dsimp only
  split
  · exact hinv.settime timer _
  · exact hinv

theorem stop_object (h : Inv build P s) (hphp : s.core.runsPhp 0 = true) (timer : TimerId)
    (ok : Bool) : Inv build P (s.stopObject timer ok) := by
  unfold State.stopObject
  split
  · exact h.stop_timer htidy hphp timer ok
  · exact h

/-- The memory that the initialisation clears is in no list. -/
theorem unlinked (h : Inv build P s) {timer : TimerId}
    (hinvalid : (s.core.timers timer).isValid = false) : s.linked build timer = false := by
  obtain ⟨hnext, hprev⟩ := htidy.unlinked h.core hinvalid
  have hhead : (s.core.tls (build.tls (.php 0))).pendingHead ≠ some timer := by
    intro hhead
    have hvalid := htidy.listed h.core ⟨timer, hhead, Relation.ReflTransGen.refl⟩
    exact Bool.false_ne_true (hinvalid.symm.trans hvalid)
  simp [State.linked, hnext, hprev, hhead]

theorem init_timer (h : Inv build P s) (hphp : s.core.runsPhp 0 = true) (kind : Kind)
    {timer : TimerId} (hmem : timer ∈ s.live)
    (hinvalid : (s.core.timers timer).isValid = false) (ok : Bool) :
    Inv build P (s.initTimer build kind timer ok) := by
  have hP : P (Timer.timerInit build 0 s.core timer ok) :=
    h.api_step htidy (.init timer ok) (by simp [Timer.phpStep, hphp, hinvalid])
  have hclobbered := h.unlinked htidy hinvalid
  have hinit := timerInit_initialised build s.core timer ok
  set next := Timer.timerInit build 0 s.core timer ok with hnext
  have hstack : next.stack 0 = s.core.stack 0 := congrFun hinit.stack 0
  have hsame {other : TimerId} (hne : other ≠ timer) : next.timers other = s.core.timers other :=
    hinit.others other hne
  refine ⟨hP, ?_, ?_, ?_, ?_, ?_, h.nodup, h.address, ?_, ?_, ?_, h.dangling⟩
  · exact hstack ▸ h.below
  · intro other hvalid
    by_cases heq : other = timer
    · subst heq
      exact hinit.owner
    · exact (hsame heq).symm ▸ h.owner other (hsame heq ▸ hvalid)
  · intro other hrun
    by_cases heq : other = timer
    · subst heq
      exact absurd (hinit.running.symm.trans hrun) Bool.false_ne_true
    · exact (hsame heq).symm ▸ h.running other (hsame heq ▸ hrun)
  · intro other htarget
    change destroyTarget (next.stack 0) = some other at htarget
    rw [hstack, (h.callbacks hphp).target_eq.1] at htarget
    cases htarget
  · change s.pending.map Rest.timer = destroyTarget (next.stack 0)
    rw [hstack]
    exact h.waiting
  · intro other hvalid
    by_cases heq : other = timer
    · exact heq ▸ hmem
    · exact h.live other (hsame heq ▸ hvalid)
  · exact h.init_count hphp hmem hinvalid hinit
  · change (if s.linked build timer then timer :: s.clobbered else s.clobbered) = []
    rw [hclobbered]
    exact h.clobbered

theorem destroy_timer (h : Inv build P s) (hphp : s.core.runsPhp 0 = true) {timer : TimerId}
    (hvalid : (s.core.timers timer).isValid = true) (halt : Bool) {rest : Rest}
    (hrest : rest.timer = timer) : Inv build P (s.destroyTimer build timer halt rest) := by
  have hP : P (Timer.timerDestroy build 0 s.core timer) :=
    h.api_step htidy (.destroy timer) (by simp [Timer.phpStep, hphp])
  have hcallbacks := h.callbacks hphp
  have hinv : Inv build P { s with
      core := Timer.timerDestroy build 0 s.core timer, pending := some rest } := by
    obtain ⟨hstack, -, htls, htimers, hothers, hstopped⟩ :=
      timerDestroy_flagged hvalid (h.owner timer hvalid)
    refine ⟨hP, ?_, ?_, ?_, ?_, ?_, h.nodup, h.address, ?_, ?_, h.clobbered, h.dangling⟩
    · rw [hstack]
      exact hcallbacks
    · intro other hother
      rw [(htimers other).1] at hother
      exact (htimers other).2.trans (h.owner other hother)
    · intro other hrun
      by_cases heq : other = timer
      · exact heq ▸ (htimers timer).1.trans hvalid
      · exact (htimers other).1.trans (h.running other (hothers other heq ▸ hrun))
    · intro other htarget
      rw [hstack] at htarget
      obtain rfl : timer = other := Option.some.inj htarget
      exact ⟨(htimers timer).1.trans hvalid, hstopped⟩
    · rw [hstack]
      exact congrArg some hrest
    · intro other hother
      exact h.live other ((htimers other).1 ▸ hother)
    · have hcount : State.validCount { s with
            core := Timer.timerDestroy build 0 s.core timer, pending := some rest } =
          s.validCount :=
        List.countP_congr fun other _ => by simp only [(htimers other).1, Timer.State.setStack]
      have hactive := h.active
      rw [hcallbacks.target_eq.2] at hactive
      rw [hcount, hstack, htls]
      exact hactive
  unfold State.destroyTimer
  dsimp only
  split
  · exact hinv.settime timer _
  · exact hinv

theorem new (h : Inv build P s) {timer : TimerId} (haddress : 0 < timer ∧ timer < 2 ^ 64)
    (hfresh : timer ∉ s.live) (object : Obj) : Inv build P (s.new timer object) := by
  have hinvalid : (s.core.timers timer).isValid = false := by
    rw [Bool.eq_false_iff]
    exact fun hvalid => hfresh (h.live timer hvalid)
  have hcleared : Inv build P { s with core := s.core.setTimer timer {} } := by
    refine h.recore (htidy.clear h.core hinvalid) h.below rfl rfl ?_ ?_ rfl
    · intro other
      by_cases heq : other = timer
      · subst heq
        simp [Timer.State.setTimer, hinvalid]
      · simp [Timer.State.setTimer, heq]
    · intro other hrun
      have hne : other ≠ timer := by
        rintro rfl
        simp [Timer.State.setTimer] at hrun
      have hold : (s.core.timers other).isRunning = true := by
        simpa [Timer.State.setTimer, hne] using hrun
      refine ⟨h.running other hold, ?_⟩
      intro htarget
      exact Bool.false_ne_true ((h.destroying other htarget).2.symm.trans hold)
  refine ⟨hcleared.core, h.below, hcleared.owner, hcleared.running, hcleared.destroying,
    h.waiting, List.nodup_cons.mpr ⟨hfresh, h.nodup⟩, ?_, ?_, ?_, h.clobbered, h.dangling⟩
  · intro other hmem
    rcases List.mem_cons.mp hmem with rfl | hold
    · exact haddress
    · exact h.address other hold
  · exact fun other hvalid => List.mem_cons_of_mem _ (hcleared.live other hvalid)
  · have hcount : (s.new timer object).validCount =
        State.validCount { s with core := s.core.setTimer timer {} } :=
      List.countP_cons_of_neg (by simp [State.new, Timer.State.setTimer])
    rw [hcount]
    exact hcleared.active

omit htidy in
/-- The memory of an object whose timer is not valid is freed. -/
theorem release (h : Inv build P s) {timer : TimerId}
    (hinvalid : (s.core.timers timer).isValid = false) : Inv build P (s.release timer) := by
  refine ⟨h.core, h.below, h.owner, h.running, h.destroying, h.waiting,
    h.nodup.erase timer, fun other hmem => h.address other (List.mem_of_mem_erase hmem), ?_, ?_,
    h.clobbered, h.dangling⟩
  · intro other hvalid
    have hne : other ≠ timer := by
      rintro rfl
      exact Bool.false_ne_true (hinvalid.symm.trans hvalid)
    exact (List.mem_erase_of_ne hne).mpr (h.live other hvalid)
  · have hcount : (s.release timer).validCount = s.validCount := by
      simp only [State.validCount, State.release, List.countP_erase, hinvalid]
      simp
    rw [hcount]
    exact h.active

theorem reinit (h : Inv build P s) (hphp : s.core.runsPhp 0 = true) (kind : Kind)
    {timer : TimerId} (hmem : timer ∈ s.live)
    (hinvalid : (s.core.timers timer).isValid = false) (outcome : Outcome) :
    Inv build P (s.reinit build kind timer outcome) := by
  have hinit := h.init_timer htidy hphp kind hmem hinvalid outcome.init
  have hruns := (State.initTimer_runsPhp build s kind timer outcome.init).trans hphp
  unfold State.reinit
  dsimp only
  split
  · refine (hinit.set_object hmem _).start_timer htidy ?_ timer outcome.start
    rw [State.setObject_core]
    exact hruns
  · exact hinit

theorem start_object (h : Inv build P s) (hphp : s.core.runsPhp 0 = true) (kind : Kind)
    {timer : TimerId} (hmem : timer ∈ s.live) (outcome : Outcome) :
    Inv build P (s.startObject build kind timer outcome) := by
  unfold State.startObject
  rw [State.beginStart_of_mem hmem]
  have hcounted : Inv build P { s with calls := s.calls + 1 } := h.congr rfl rfl rfl rfl rfl
  dsimp only
  split
  · split
    case isTrue hvalid => exact hcounted.destroy_timer htidy hphp hvalid outcome.halt rfl
    case isFalse hinvalid =>
      exact hcounted.reinit htidy hphp kind hmem (Bool.eq_false_iff.mpr hinvalid) outcome
  · exact hcounted.start_timer htidy hphp timer outcome.start

theorem stop_running (h : Inv build P s) (hphp : s.core.runsPhp 0 = true) (timer : TimerId)
    (ok : Bool) : Inv build P (s.stopRunning timer ok) := by
  unfold State.stopRunning
  split
  · exact h.stop_object htidy hphp timer ok
  · exact h

theorem start (h : Inv build P s) (hphp : s.core.runsPhp 0 = true) {timer : TimerId}
    (hmem : timer ∈ s.live) (outcome : Outcome) :
    Inv build P (s.start build timer outcome) := by
  rw [State.start_eq]
  refine (h.stop_running htidy hphp timer outcome.stop).start_object htidy ?_ _ ?_ outcome
  · rw [State.stopRunning_runsPhp]
    exact hphp
  · rw [State.stopRunning_live]
    exact hmem

theorem free_object (h : Inv build P s) (hphp : s.core.runsPhp 0 = true) {timer : TimerId}
    (halt : Bool) : Inv build P (s.freeObject build timer halt) := by
  unfold State.freeObject
  split
  case isTrue hvalid => exact h.destroy_timer htidy hphp hvalid halt rfl
  case isFalse hinvalid => exact h.release (Bool.eq_false_iff.mpr hinvalid)

/-- The call that waited for the destruction goes on with a timer that is not
valid. -/
theorem resume (hdone : Inv build P { s with pending := none })
    (hphp : s.core.runsPhp 0 = true)
    (hready : ∀ rest, s.pending = some rest →
      rest.timer ∈ s.live ∧ (s.core.timers rest.timer).isValid = false) :
    Inv build P (s.resume build) := by
  unfold State.resume
  split
  case h_1 hnone =>
    rw [← hnone] at hdone
    exact hdone
  case h_2 kind timer outcome hrest =>
    obtain ⟨hmem, hinvalid⟩ := hready _ hrest
    exact hdone.reinit htidy hphp kind hmem hinvalid outcome
  case h_3 timer hrest => exact hdone.release (hready _ hrest).2

/-- The end of the destruction, after which the waiting call goes on. -/
theorem finish (h : Inv build P s) {timer : TimerId} {rest : List Frame}
    (hstack : s.core.stack 0 = .destroy timer .finish :: rest) {next : Timer.State}
    (hP : P next) (hfinished : Finished s.core next timer rest) :
    Inv build P (State.resume build { s with core := next }) := by
  have hinv := h.destroy_finish hstack hP hfinished
  refine resume htidy hinv (hfinished.runsPhp (h.below_of_stack hstack)) ?_
  intro waiting hwaiting
  have htimer : waiting.timer = timer := by
    have htarget := h.waiting
    rw [hwaiting, hstack] at htarget
    exact Option.some.inj htarget
  rw [htimer]
  exact ⟨h.live timer (h.destroying timer (by rw [hstack]; rfl)).1, hfinished.valid⟩

theorem step (h : Inv build P s) {action : Action} (hstep : step build s action = some t) :
    Inv build P t := by
  cases step_moves hstep with
  | newTimer _ haddress hfresh => exact h.new htidy haddress hfresh _
  | newProfiler _ haddress hfresh => exact h.new htidy haddress hfresh _
  | setEventType hready => exact h.set_object hready.2 _
  | rejectEventType => exact h.warn htidy _
  | setInterval hready => exact h.set_object hready.2 _
  | setPeriod hready => exact h.set_object hready.2 _
  | setCallback hready => exact h.set_object hready.2 _
  | rejectCallback => exact h.warn htidy _
  | start hready => exact h.start htidy hready.1 hready.2 _
  | stop hready => exact h.stop_object htidy hready.1 _ _
  | free hready => exact h.free_object htidy hready.1 _
  | expire => exact h.congr rfl rfl rfl rfl rfl
  | tick => exact h
  | delete hstack hcore hnext =>
      have hP := htidy.step h.core rfl hcore
      exact (h.destroy_timerlib hstack hP hnext).congr rfl rfl rfl rfl rfl
  | unlink hstack hfirst hlast hcore hnext =>
      have hP := htidy.step h.core rfl hcore
      exact h.passive hP
        (destroyNext_passive hstack (h.below_of_stack hstack) hfirst hlast hnext)
  | finish hstack hcore hnext =>
      exact h.finish htidy hstack (htidy.step h.core rfl hcore) (destroyNext_finished hnext)
  | @core action next hbackground hcore =>
      refine h.passive (htidy.step h.core ?_ hcore)
        (background_passive h.below hbackground hcore)
      cases action <;> simp_all [background, Timer.ofMainThread]

end Steps

end Inv

theorem initial_inv {build : Build} {P : Timer.State → Prop} (htidy : Tidy build P) :
    Inv build P State.initial where
  core := htidy.initial
  below := by simp [State.initial, Timer.State.initial, Callbacks]
  owner timer hvalid := by cases hvalid
  running timer hrun := by cases hrun
  destroying timer htarget := by cases htarget
  waiting := rfl
  nodup := List.nodup_nil
  address timer hmem := by cases hmem
  live timer hvalid := by cases hvalid
  active := rfl
  clobbered := rfl
  dangling := rfl

theorem run_inv {build : Build} {P : Timer.State → Prop} (htidy : Tidy build P)
    {actions : List Action} {s : State}
    (hrun : Transition.run (step build) State.initial actions = some s) : Inv build P s :=
  Transition.run_invariant (Inv build P) (fun _ _ _ h hstep => h.step htidy hstep)
    (initial_inv htidy) hrun

/-- Both builds are tidy. -/
theorem exists_tidy {build : Build} (hbuild : build = .nonZts ∨ build = .zts) :
    ∃ P, Tidy build P := by
  rcases hbuild with rfl | rfl
  · exact ⟨_, Timer.nonZts_tidy⟩
  · exact ⟨_, Timer.zts_tidy⟩

/-- In every history of one PHP thread, `timers_active` is the number of live
objects whose timer is valid (one less while `excimer_timer_destroy` finishes),
and is positive whenever it is decremented. Only valid timers run, only valid
timers of live objects are linked or on the pending list, and no linked timer
has been cleared. -/
theorem lifecycle_invariant {build : Build} (hbuild : build = .nonZts ∨ build = .zts)
    {actions : List Action} {s : State}
    (hrun : Transition.run (step build) State.initial actions = some s) :
    (s.timersActive build).toNat + leaving (s.core.stack 0) = s.validCount ∧
      (s.core.runsPhp 0 = true → (s.timersActive build).toNat = s.validCount) ∧
      (∀ timer rest, s.core.stack 0 = .destroy timer .timerlib :: rest →
        0 < (s.timersActive build).toNat) ∧
      (∀ timer, (s.core.timers timer).isRunning = true →
        (s.core.timers timer).isValid = true) ∧
      (∀ timer, OnPendingList s.core (build.tls (.php 0)) timer ∨
          (s.core.timers timer).pendingNext ≠ none →
        timer ∈ s.live ∧ (s.core.timers timer).isValid = true) ∧
      s.clobbered = [] ∧
      (s.live = [] → s.timersActive build = 0 ∧
        (s.core.tls (build.tls (.php 0))).pendingHead = none) := by
  obtain ⟨P, htidy⟩ := exists_tidy hbuild
  have h := run_inv htidy hrun
  have hactive : (s.timersActive build).toNat + leaving (s.core.stack 0) = s.validCount := h.active
  have hlisted (timer : TimerId) (hlinked : OnPendingList s.core (build.tls (.php 0)) timer ∨
      (s.core.timers timer).pendingNext ≠ none) :
      timer ∈ s.live ∧ (s.core.timers timer).isValid = true := by
    have hvalid : (s.core.timers timer).isValid = true := by
      rcases hlinked with hlisted | hnext
      · exact htidy.listed h.core hlisted
      · by_contra hinvalid
        exact hnext (htidy.unlinked h.core (Bool.eq_false_iff.mpr hinvalid)).1
    exact ⟨h.live timer hvalid, hvalid⟩
  refine ⟨hactive, ?_, ?_, h.running, hlisted, h.clobbered, ?_⟩
  · intro hphp
    rw [(h.callbacks hphp).target_eq.2] at hactive
    exact hactive
  · intro timer rest hstack
    have hvalid := (h.destroying timer (by rw [hstack]; rfl)).1
    have hpositive : 0 < s.validCount :=
      List.countP_pos_iff.mpr ⟨timer, h.live timer hvalid, hvalid⟩
    rw [hstack] at hactive
    change _ + 0 = _ at hactive
    omega
  · intro hlive
    rw [State.validCount, hlive, List.countP_nil] at hactive
    refine ⟨?_, ?_⟩
    · rw [← UInt64.toNat_inj, UInt64.toNat_zero]
      omega
    · rw [Option.eq_none_iff_forall_ne_some]
      intro timer hhead
      have hmem := (hlisted timer (Or.inl ⟨timer, hhead, Relation.ReflTransGen.refl⟩)).1
      rw [hlive] at hmem
      cases hmem

/-- A timer with a pending event is moved to the CPU clock, which fails, while a
profiler goes on running. -/
def movedInVain : List Action :=
  [.new 5 .timer ⟨0, 0⟩, .setPeriod 5 ⟨1, 0⟩ ⟨0, 0⟩, .start 5 { init := false }, .start 5 {},
    .new 6 .profiler ⟨0, 7⟩, .start 6 {}, .core (.handle 5 0), .core (.handle 6 2),
    .core (.store 5), .setEventType 5 1, .start 5 { init := false }, .destroyNext, .destroyNext,
    .destroyNext, .destroyNext, .destroyNext]

theorem lifecycle_invariant_movedInVain :
    ∃ s, Transition.run (step .nonZts) State.initial movedInVain = some s ∧
      s.live = [6, 5] ∧ (s.timersActive .nonZts).toNat = s.validCount ∧ s.validCount = 1 ∧
      (s.core.timers 6).pendingNext ≠ none ∧ (s.core.timers 6).isValid = true := by
  obtain ⟨s, hrun, hcheck⟩ := Transition.run_check (step .nonZts) State.initial movedInVain
    (fun s => s.live == [6, 5] && s.core.runsPhp 0 && s.validCount == 1 &&
      (s.core.timers 6).pendingNext.isSome) (by decide)
  simp only [Bool.and_eq_true, beq_iff_eq] at hcheck
  obtain ⟨⟨⟨hlive, hphp⟩, hcount⟩, hsome⟩ := hcheck
  have hnext : (s.core.timers 6).pendingNext ≠ none := Option.isSome_iff_ne_none.mp hsome
  obtain ⟨_, hactive, _, _, hlisted, _⟩ := lifecycle_invariant (Or.inl rfl) hrun
  exact ⟨s, hrun, hlive, hactive hphp, hcount, hnext, (hlisted 6 (Or.inr hnext)).2⟩

end Excimer.Object
