import Excimer.Object.Lifecycle

/-!
When the configuration of an object takes effect. The setters only write to the
object; `start` brings the timer in line with it, by arming it again or by
destroying and initialising it first. The kernel's view of the timer is compared
with the object, under the assumption that `timer_settime` does not fail.
-/

namespace Excimer.Object

open Timer (Build TimerId Timespec Frame Tidy effectiveInitial)

/-- The calls of `timer_settime` that an action makes are successful. -/
def settimeSucceeds : Action → Bool
  | .start _ outcome => outcome.stop && outcome.halt && outcome.start
  | .stop _ ok => ok
  | .free _ halt => halt
  | _ => true

/-- The clock on which the kernel timer of an object has been created. -/
def State.kernelClock (s : State) (timer : TimerId) : Option EventType :=
  (s.kernel timer).map KernelTimer.clock

/-- An object and its timer in the kernel. An object that needs no
initialisation has a timer on the right clock, unless it is being freed, and a
timer that is not running is not armed. -/
structure Fine (s : State) (timer : TimerId) : Prop where
  clock : timer ∈ s.live → s.pending ≠ some (.release timer) →
    (s.objects timer).needReinit = false → (s.core.timers timer).isValid = true ∧
      s.kernelClock timer = some (s.objects timer).eventType
  held : (s.core.timers timer).isValid = false → s.kernel timer = none
  disarmed : (s.core.timers timer).isRunning = false →
    ∀ k, s.kernel timer = some k → k.armed = none

structure Configured (s : State) : Prop where
  fine : ∀ timer, Fine s timer
  /-- A start that waits for the destruction was asked to initialise again. -/
  reinit : ∀ kind timer outcome, s.pending = some (.reinit kind timer outcome) →
    (s.objects timer).needReinit = true ∧ outcome.start = true
  /-- The timer library has deleted the kernel timer. -/
  deleted : ∀ timer, destroyTarget (s.core.stack 0) = some timer →
    leaving (s.core.stack 0) = 1 → s.kernel timer = none

theorem initial_configured : Configured State.initial where
  fine timer := by
    refine ⟨?_, fun _ => rfl, ?_⟩
    · intro hmem
      cases hmem
    · intro _ k hkernel
      cases hkernel
  reinit kind timer outcome hpending := by cases hpending
  deleted timer htarget := by cases htarget

variable {build : Build} {P : Timer.State → Prop} {s t : State}

/-- Nothing that concerns an object has changed. -/
structure SameAt (s t : State) (timer : TimerId) : Prop where
  valid : (t.core.timers timer).isValid = (s.core.timers timer).isValid
  running : (t.core.timers timer).isRunning = (s.core.timers timer).isRunning
  reinit : (t.objects timer).needReinit = (s.objects timer).needReinit
  eventType : (t.objects timer).eventType = (s.objects timer).eventType
  kernel : t.kernel timer = s.kernel timer
  live : timer ∈ t.live → timer ∈ s.live
  pending : s.pending = some (.release timer) → t.pending = some (.release timer)

theorem Fine.same {timer : TimerId} (h : Fine s timer) (hsame : SameAt s t timer) :
    Fine t timer where
  clock hmem hpending hclean := by
    rw [hsame.valid, State.kernelClock, hsame.kernel, hsame.eventType]
    exact h.clock (hsame.live hmem) (fun hold => hpending (hsame.pending hold))
      (hsame.reinit.symm.trans hclean)
  held hinvalid := by
    rw [hsame.kernel]
    exact h.held (hsame.valid.symm.trans hinvalid)
  disarmed hstopped := by
    rw [hsame.kernel]
    exact h.disarmed (hsame.running.symm.trans hstopped)

/-- Only the arming of the timer has changed. -/
theorem Fine.rearmed {timer : TimerId} (h : Fine s timer)
    (hvalid : (t.core.timers timer).isValid = (s.core.timers timer).isValid)
    (hobjects : t.objects = s.objects) (hlive : t.live = s.live)
    (hpending : t.pending = s.pending) (hclock : t.kernelClock timer = s.kernelClock timer)
    (hdisarmed : (t.core.timers timer).isRunning = false →
      ∀ k, t.kernel timer = some k → k.armed = none) : Fine t timer where
  clock := by
    rw [hvalid, hobjects, hlive, hpending, hclock]
    exact h.clock
  held hinvalid := by
    have hnone := h.held (hvalid.symm.trans hinvalid)
    have hmap : s.kernelClock timer = none := by rw [State.kernelClock, hnone, Option.map_none]
    exact Option.map_eq_none_iff.mp (hclock.trans hmap)
  disarmed := hdisarmed

/-- `timer_settime` on one kernel timer, if it is called. -/
def rearm (kernel : TimerId → Option KernelTimer) (timer : TimerId) (called : Bool)
    (armed : Option Arming) : TimerId → Option KernelTimer :=
  if called then Function.update kernel timer ((kernel timer).map fun k => { k with armed })
  else kernel

section Rearm

variable (kernel : TimerId → Option KernelTimer) {timer : TimerId} (called : Bool)
  (armed : Option Arming)

theorem rearm_other {other : TimerId} (hne : other ≠ timer) :
    rearm kernel timer called armed other = kernel other := by
  unfold rearm
  split
  · exact Function.update_of_ne hne _ _
  · rfl

theorem rearm_clock : (rearm kernel timer called armed timer).map KernelTimer.clock =
    (kernel timer).map KernelTimer.clock := by
  unfold rearm
  split
  · rw [Function.update_self, Option.map_map]
    rfl
  · rfl

/-- A disarmed timer stays so if it is not armed again. -/
theorem rearm_none (hold : called = false → ∀ k, kernel timer = some k → k.armed = none)
    {k : KernelTimer} (hkernel : rearm kernel timer called none timer = some k) :
    k.armed = none := by
  unfold rearm at hkernel
  split at hkernel
  · rw [Function.update_self] at hkernel
    obtain ⟨old, _, rfl⟩ := Option.map_eq_some_iff.mp hkernel
    rfl
  · next hcalled => exact hold (Bool.eq_false_iff.mpr hcalled) k hkernel

end Rearm

theorem State.startTimer_eq (s : State) (timer : TimerId) (ok : Bool) :
    s.startTimer timer ok = { s with
      core := Timer.timerStart s.core timer (s.objects timer).period (s.objects timer).initial ok
      kernel := rearm s.kernel timer
        (starts (s.core.timers timer) (s.objects timer).period (s.objects timer).initial ok)
        (some ⟨s.calls, (s.objects timer).period,
          effectiveInitial (s.objects timer).period (s.objects timer).initial⟩) } := by
  unfold State.startTimer starts rearm
  dsimp only
  split
  · rfl
  · rfl

theorem State.stopTimer_eq (s : State) (timer : TimerId) (ok : Bool) :
    s.stopTimer timer ok = { s with
      core := Timer.timerStop s.core timer ok
      kernel := rearm s.kernel timer (stops (s.core.timers timer) ok) none } := by
  unfold State.stopTimer stops rearm
  dsimp only
  split
  · rfl
  · rfl

theorem State.destroyTimer_eq (s : State) (timer : TimerId) (halt : Bool) (rest : Rest) :
    s.destroyTimer build timer halt rest = { s with
      core := Timer.timerDestroy build 0 s.core timer
      pending := some rest
      kernel := rearm s.kernel timer ((s.core.timers timer).isRunning && halt) none } := by
  unfold State.destroyTimer rearm
  dsimp only
  split
  · rfl
  · rfl

theorem State.initTimer_kernel (build : Build) (s : State) (kind : Kind) (timer : TimerId)
    (ok : Bool) : (s.initTimer build kind timer ok).kernel timer =
      if ok then some { clock := (s.objects timer).eventType } else none := by
  simp [State.initTimer]

theorem State.setObject_eq {timer : TimerId} (hmem : timer ∈ s.live) (object : Obj) :
    s.setObject timer object = { s with objects := Function.update s.objects timer object } := by
  rw [State.setObject, State.touch_of_mem hmem]

namespace Configured

/-- A call that concerns one object and returns. -/
theorem call (h : Configured s) (timer : TimerId)
    (hothers : ∀ other, other ≠ timer → SameAt s t other) (hself : Fine t timer)
    (hpending : t.pending = none) (htarget : destroyTarget (t.core.stack 0) = none) :
    Configured t where
  fine other := by
    by_cases heq : other = timer
    · exact heq ▸ hself
    · exact (h.fine other).same (hothers other heq)
  reinit kind other outcome hsome := by
    rw [hpending] at hsome
    cases hsome
  deleted other hsome := by
    rw [htarget] at hsome
    cases hsome

/-- A step of the subsystem that concerns no object. -/
theorem passive (h : Configured s) {next : Timer.State}
    (hpassive : Passive build s.core next) : Configured { s with core := next } where
  fine timer := by
    obtain ⟨hvalid, hrunning, _⟩ := hpassive.timers timer
    exact (h.fine timer).same ⟨hvalid, hrunning, rfl, rfl, rfl, id, id⟩
  reinit := h.reinit
  deleted timer htarget hleaving :=
    h.deleted timer (hpassive.target.symm.trans htarget) (hpassive.outgoing.symm.trans hleaving)

section Calls

variable (hinv : Inv build P s) (hphp : s.core.runsPhp 0 = true)

include hinv hphp

/-- An object that needs no initialisation has a valid timer on its clock. -/
theorem clock_of_clean (h : Configured s) {timer : TimerId} (hmem : timer ∈ s.live)
    (hclean : (s.objects timer).needReinit = false) :
    (s.core.timers timer).isValid = true ∧
      s.kernelClock timer = some (s.objects timer).eventType := by
  apply (h.fine timer).clock hmem _ hclean
  rw [hinv.pending_none hphp]
  simp

theorem set_object (h : Configured s) {timer : TimerId} (hmem : timer ∈ s.live) {object : Obj}
    (hobject : object.needReinit = false → (s.core.timers timer).isValid = true ∧
      s.kernelClock timer = some object.eventType) :
    Configured (s.setObject timer object) := by
  rw [State.setObject_eq hmem]
  refine h.call timer ?_ ?_ (hinv.pending_none hphp) (hinv.callbacks hphp).target_eq.1
  · intro other hne
    refine ⟨rfl, rfl, ?_, ?_, rfl, id, id⟩ <;> simp [hne]
  · refine ⟨?_, (h.fine timer).held, (h.fine timer).disarmed⟩
    intro _ _ hclean
    simp only [Function.update_self] at hclean ⊢
    exact hobject hclean

/-- A setter that does not concern the clock. -/
theorem set_other (h : Configured s) {timer : TimerId} (hmem : timer ∈ s.live) {object : Obj}
    (hreinit : object.needReinit = (s.objects timer).needReinit)
    (htype : object.eventType = (s.objects timer).eventType) :
    Configured (s.setObject timer object) := by
  apply h.set_object hinv hphp hmem
  intro hclean
  rw [htype]
  exact h.clock_of_clean hinv hphp hmem (hreinit.symm.trans hclean)

/-- A call that writes at most `is_running`, and arms or disarms the kernel timer. -/
theorem flagged (h : Configured s) {timer : TimerId} {core : Timer.State} {running called : Bool}
    {armed : Option Arming} (hflagged : Flagged s.core core timer running)
    (hdisarmed : running = false →
      ∀ k, rearm s.kernel timer called armed timer = some k → k.armed = none) :
    Configured { s with core := core, kernel := rearm s.kernel timer called armed } := by
  have htarget : destroyTarget (core.stack 0) = none := by
    rw [hflagged.stack]
    exact (hinv.callbacks hphp).target_eq.1
  refine h.call timer ?_ ?_ (hinv.pending_none hphp) htarget
  · intro other hne
    exact ⟨(hflagged.timers other).1, hflagged.others other hne, rfl, rfl,
      rearm_other _ _ _ hne, id, id⟩
  · refine (h.fine timer).rearmed (hflagged.timers timer).1 rfl rfl rfl (rearm_clock ..) ?_
    exact fun hstopped => hdisarmed (hflagged.self.symm.trans hstopped)

theorem stop_timer (h : Configured s) (timer : TimerId) :
    Configured (s.stopTimer timer true) := by
  rw [State.stopTimer_eq]
  refine h.flagged hinv hphp (timerStop_flagged s.core timer true) ?_
  intro hstopped k hkernel
  apply rearm_none _ _ _ hkernel
  intro hcalled
  apply (h.fine timer).disarmed
  rw [hcalled] at hstopped
  exact hstopped

theorem start_timer (h : Configured s) (timer : TimerId) (ok : Bool) :
    Configured (s.startTimer timer ok) := by
  rw [State.startTimer_eq]
  refine h.flagged hinv hphp (timerStart_flagged s.core timer _ _ ok) ?_
  intro hstopped k hkernel
  rw [Bool.or_eq_false_iff] at hstopped
  rw [hstopped.1] at hkernel
  exact (h.fine timer).disarmed hstopped.2 k hkernel

theorem destroy_timer (h : Configured s) {timer : TimerId}
    (hvalid : (s.core.timers timer).isValid = true) {rest : Rest} (hrest : rest.timer = timer)
    (hreinit : ∀ kind outcome, rest = .reinit kind timer outcome →
      (s.objects timer).needReinit = true ∧ outcome.start = true) :
    Configured (s.destroyTimer build timer true rest) := by
  rw [State.destroyTimer_eq]
  obtain ⟨hstack, hflagged⟩ := timerDestroy_flagged hvalid (hinv.owner timer hvalid)
  refine ⟨?_, ?_, ?_⟩
  · intro other
    by_cases heq : other = timer
    · subst heq
      refine ⟨?_, ?_, ?_⟩
      · -- Either the object is being freed or it asked for a new timer.
        intro _ hnot hclean
        cases rest with
        | reinit kind third outcome =>
            obtain rfl : third = other := hrest
            rw [(hreinit kind outcome rfl).1] at hclean
            cases hclean
        | release third =>
            obtain rfl : third = other := hrest
            exact absurd rfl hnot
      · intro hinvalid
        have hsame := (hflagged.timers other).1.trans hvalid
        exact absurd (hsame.symm.trans hinvalid) Bool.false_ne_true.symm
      · intro _ k hkernel
        apply rearm_none _ _ _ hkernel
        intro hcalled
        rw [Bool.and_true] at hcalled
        exact (h.fine other).disarmed hcalled
    · refine (h.fine other).same ⟨(hflagged.timers other).1, hflagged.others other heq, rfl, rfl,
        rearm_other _ _ _ heq, id, ?_⟩
      intro hpending
      rw [hinv.pending_none hphp] at hpending
      cases hpending
  · intro kind other outcome hpending
    cases hpending
    obtain rfl : other = timer := hrest
    exact hreinit kind outcome rfl
  · intro other _ hleaving
    rw [hstack] at hleaving
    cases hleaving

theorem init_timer (h : Configured s) (kind : Kind) {timer : TimerId}
    (hreinit : (s.objects timer).needReinit = true) (ok : Bool) :
    Configured (s.initTimer build kind timer ok) := by
  have hinit := timerInit_initialised build s.core timer ok
  have htarget : destroyTarget ((Timer.timerInit build 0 s.core timer ok).stack 0) = none := by
    rw [hinit.stack]
    exact (hinv.callbacks hphp).target_eq.1
  refine h.call timer ?_ ?_ (hinv.pending_none hphp) htarget
  · intro other hne
    refine ⟨?_, ?_, rfl, rfl, Function.update_of_ne hne _ _, id, id⟩
    · exact congrArg _ (hinit.others other hne)
    · exact congrArg _ (hinit.others other hne)
  · refine ⟨?_, ?_, ?_⟩
    · intro _ _ hclean
      exact absurd (hreinit.symm.trans hclean) (by simp)
    · intro hinvalid
      obtain rfl : ok = false := hinit.valid.symm.trans hinvalid
      exact State.initTimer_kernel ..
    · intro _ k hkernel
      rw [State.initTimer_kernel] at hkernel
      obtain ⟨_, heq⟩ := Option.ite_none_right_eq_some.mp hkernel
      cases heq
      rfl

theorem reinit_object (h : Configured s) (htidy : Tidy build P) (kind : Kind) {timer : TimerId}
    (hmem : timer ∈ s.live) (hinvalid : (s.core.timers timer).isValid = false)
    (hreinit : (s.objects timer).needReinit = true) (outcome : Outcome) :
    Configured (s.reinit build kind timer outcome) := by
  have hfirst := h.init_timer hinv hphp kind hreinit outcome.init
  have hinv' := hinv.init_timer htidy hphp kind hmem hinvalid outcome.init
  have hruns := (State.initTimer_runsPhp build s kind timer outcome.init).trans hphp
  have hvalid := (timerInit_initialised build s.core timer outcome.init).valid
  unfold State.reinit
  dsimp only
  split
  case isFalse => exact hfirst
  case isTrue hok =>
    refine (hfirst.set_object hinv' hruns hmem ?_).start_timer (hinv'.set_object hmem _) ?_ timer _
    · intro _
      refine ⟨hvalid.trans hok, ?_⟩
      rw [State.kernelClock, State.initTimer_kernel, if_pos hok]
      rfl
    · rw [State.setObject_core]
      exact hruns

theorem start_object (h : Configured s) (htidy : Tidy build P) (kind : Kind) {timer : TimerId}
    (hmem : timer ∈ s.live) {outcome : Outcome} (hhalt : outcome.halt = true)
    (hstart : outcome.start = true) :
    Configured (s.startObject build kind timer outcome) := by
  have hcounted : Configured { s with calls := s.calls + 1 } := ⟨fun timer =>
    (h.fine timer).same ⟨rfl, rfl, rfl, rfl, rfl, id, id⟩, h.reinit, h.deleted⟩
  have hinv' : Inv build P { s with calls := s.calls + 1 } := hinv.congr rfl rfl rfl rfl rfl
  unfold State.startObject
  rw [State.beginStart_of_mem hmem]
  dsimp only
  split
  case isFalse => exact hcounted.start_timer hinv' hphp timer outcome.start
  case isTrue hneed =>
    split
    case isTrue hvalid =>
      rw [hhalt]
      refine hcounted.destroy_timer hinv' hphp hvalid rfl ?_
      intro kind' outcome' heq
      cases heq
      refine ⟨?_, hstart⟩
      simpa [hvalid] using hneed
    case isFalse hinvalid =>
      refine hcounted.reinit_object hinv' hphp htidy kind hmem (Bool.eq_false_iff.mpr hinvalid)
        ?_ outcome
      by_contra hclean
      exact hinvalid (h.clock_of_clean hinv hphp hmem (Bool.eq_false_iff.mpr hclean)).1

theorem stop_object (h : Configured s) (timer : TimerId) :
    Configured (s.stopObject timer true) := by
  unfold State.stopObject
  split
  · exact h.stop_timer hinv hphp timer
  · exact h

theorem stop_running (h : Configured s) (timer : TimerId) :
    Configured (s.stopRunning timer true) := by
  unfold State.stopRunning
  split
  · exact h.stop_object hinv hphp timer
  · exact h

theorem start (h : Configured s) (htidy : Tidy build P) {timer : TimerId}
    (hmem : timer ∈ s.live) {outcome : Outcome} (hstop : outcome.stop = true)
    (hhalt : outcome.halt = true) (hstart : outcome.start = true) :
    Configured (s.start build timer outcome) := by
  rw [State.start_eq, hstop]
  refine (h.stop_running hinv hphp timer).start_object (hinv.stop_running htidy hphp timer true) ?_
    htidy _ ?_ hhalt hstart
  · rw [State.stopRunning_runsPhp]
    exact hphp
  · rw [State.stopRunning_live]
    exact hmem

/-- The object is freed: what is left of it does not matter. -/
theorem release (h : Configured s) (timer : TimerId) : Configured (s.release timer) := by
  refine h.call timer ?_ ?_ (hinv.pending_none hphp) (hinv.callbacks hphp).target_eq.1
  · exact fun other _ => ⟨rfl, rfl, rfl, rfl, rfl, List.mem_of_mem_erase, id⟩
  · refine ⟨?_, (h.fine timer).held, (h.fine timer).disarmed⟩
    intro hmem
    exact absurd hmem hinv.nodup.not_mem_erase

theorem free_object (h : Configured s) (timer : TimerId) :
    Configured (s.freeObject build timer true) := by
  unfold State.freeObject
  split
  case isTrue hvalid =>
    refine h.destroy_timer hinv hphp hvalid rfl ?_
    intro kind outcome heq
    cases heq
  case isFalse => exact h.release hinv hphp timer

theorem new (h : Configured s) {timer : TimerId} (hfresh : timer ∉ s.live) {object : Obj}
    (hobject : object.needReinit = true) : Configured (s.new timer object) := by
  have hinvalid : (s.core.timers timer).isValid = false := by
    rw [Bool.eq_false_iff]
    exact fun hvalid => hfresh (hinv.live timer hvalid)
  have hkernel : s.kernel timer = none := (h.fine timer).held hinvalid
  refine h.call timer ?_ ?_ (hinv.pending_none hphp) (hinv.callbacks hphp).target_eq.1
  · intro other hne
    refine ⟨?_, ?_, ?_, ?_, rfl, ?_, id⟩
    · simp [State.new, Timer.State.setTimer, hne]
    · simp [State.new, Timer.State.setTimer, hne]
    · simp [State.new, hne]
    · simp [State.new, hne]
    · intro hmem
      exact (List.mem_cons.mp hmem).resolve_left hne
  · refine ⟨?_, fun _ => hkernel, ?_⟩
    · intro _ _ hclean
      simp [State.new, hobject] at hclean
    · intro _ k hsome
      cases hkernel.symm.trans hsome

end Calls

/-- The call that waits while a timer is destroyed is about its object. An object
that is not being freed has asked for a new timer. -/
theorem waiting (h : Configured s) (hinv : Inv build P s) {timer : TimerId}
    (htarget : destroyTarget (s.core.stack 0) = some timer) :
    s.pending = some (.release timer) ∨
      (s.objects timer).needReinit = true ∧
        ∃ kind outcome, s.pending = some (.reinit kind timer outcome) ∧ outcome.start = true := by
  have hwaiting := hinv.waiting
  rw [htarget] at hwaiting
  obtain ⟨rest, hrest, htimer⟩ := Option.map_eq_some_iff.mp hwaiting
  cases rest with
  | release other =>
      obtain rfl : other = timer := htimer
      exact Or.inl hrest
  | reinit kind other outcome =>
      obtain rfl : other = timer := htimer
      obtain ⟨hreinit, hstart⟩ := h.reinit kind other outcome hrest
      exact Or.inr ⟨hreinit, kind, outcome, hrest, hstart⟩

/-- The end of the destruction. What is left of the object is either about to be
initialised again or not live any more. -/
theorem finished (h : Configured s) {timer : TimerId} {rest : List Frame}
    (hkernel : s.kernel timer = none) (hfinished : Finished s.core t.core timer rest)
    (hrest : Callbacks rest) (hobjects : t.objects = s.objects) (hkept : t.kernel = s.kernel)
    (hlive : ∀ other, other ∈ t.live → other ∈ s.live)
    (hself : timer ∈ t.live → (s.objects timer).needReinit = true)
    (hothers : ∀ other, s.pending = some (.release other) → other = timer)
    (hpending : t.pending = none) : Configured t := by
  refine h.call timer ?_ ?_ hpending ?_
  · intro other hne
    have hsame := hfinished.others other hne
    refine ⟨congrArg _ hsame, congrArg _ hsame, ?_, ?_, ?_, hlive other, ?_⟩
    · rw [hobjects]
    · rw [hobjects]
    · rw [hkept]
    · exact fun hrelease => absurd (hothers other hrelease) hne
  · have hnone : t.kernel timer = none := hkept ▸ hkernel
    refine ⟨?_, fun _ => hnone, ?_⟩
    · intro hmem _ hclean
      rw [hobjects, hself hmem] at hclean
      cases hclean
    · intro _ k hsome
      cases hnone.symm.trans hsome
  · rw [hfinished.stack]
    exact hrest.target_eq.1

theorem finish (h : Configured s) (htidy : Tidy build P) (hinv : Inv build P s)
    {timer : TimerId} {rest : List Frame}
    (hstack : s.core.stack 0 = .destroy timer .finish :: rest) {next : Timer.State}
    (hP : P next) (hfinished : Finished s.core next timer rest) :
    Configured (State.resume build { s with core := next }) := by
  have htarget : destroyTarget (s.core.stack 0) = some timer := by rw [hstack]; rfl
  have hkernel := h.deleted timer htarget (by rw [hstack]; rfl)
  have hrest := hinv.below_of_stack hstack
  have hmem : timer ∈ s.live := hinv.live timer (hinv.destroying timer htarget).1
  have hdone := hinv.destroy_finish hstack hP hfinished
  rcases h.waiting hinv htarget with hrelease | ⟨hreinit, kind, outcome, hpending, _⟩
  · simp only [State.resume, hrelease]
    refine h.finished hkernel hfinished hrest rfl rfl (fun _ => List.mem_of_mem_erase) ?_ ?_ rfl
    · intro herased
      exact absurd herased hinv.nodup.not_mem_erase
    · intro other heq
      rw [hrelease] at heq
      cases heq
      rfl
  · have hmid : Configured { s with core := next, pending := none } := by
      refine h.finished hkernel hfinished hrest rfl rfl (fun _ => id) (fun _ => hreinit) ?_ rfl
      intro other heq
      rw [hpending] at heq
      cases heq
    simp only [State.resume, hpending]
    exact hmid.reinit_object hdone (hfinished.runsPhp hrest) htidy kind hmem hfinished.valid hreinit
      outcome

/-- The timer library deletes the kernel timer. -/
theorem delete (h : Configured s) (hinv : Inv build P s) {timer : TimerId} {rest : List Frame}
    (hstack : s.core.stack 0 = .destroy timer .timerlib :: rest) {next : Timer.State}
    (hstep : Timer.destroyNext build 0 s.core timer rest .timerlib = some next) :
    Configured (State.setKernel { s with core := next } timer none) := by
  have htarget : destroyTarget (s.core.stack 0) = some timer := by rw [hstack]; rfl
  simp only [Timer.destroyNext] at hstep
  split at hstep
  case h_1 => cases hstep
  case h_2 =>
    cases hstep
    have hnone : Function.update s.kernel timer none timer = none := Function.update_self ..
    refine ⟨?_, h.reinit, ?_⟩
    · intro other
      by_cases heq : other = timer
      · subst heq
        refine ⟨?_, fun _ => hnone, ?_⟩
        · intro _ hnot hclean
          rcases h.waiting hinv htarget with hrelease | ⟨hreinit, _⟩
          · exact absurd hrelease hnot
          · exact absurd (hreinit.symm.trans hclean) (by simp)
        · intro _ k hsome
          cases hnone.symm.trans hsome
      · exact (h.fine other).same
          ⟨rfl, rfl, rfl, rfl, Function.update_of_ne heq _ _, id, id⟩
    · intro other hother _
      rw [State.setKernel, Timer.State.setStack_stack] at hother
      obtain rfl : timer = other := Option.some.inj hother
      exact hnone

theorem warn (h : Configured s) (message : String) : Configured (s.warn message) :=
  ⟨fun timer => (h.fine timer).same ⟨rfl, rfl, rfl, rfl, rfl, id, id⟩, h.reinit, h.deleted⟩

theorem expire (h : Configured s) {timer : TimerId} {clock : EventType} {arming : Arming}
    (hkernel : s.kernel timer = some ⟨clock, some arming⟩) :
    Configured (s.setKernel timer (some ⟨clock, none⟩)) := by
  have hself : (s.setKernel timer (some ⟨clock, none⟩)).kernel timer = some ⟨clock, none⟩ := by
    simp [State.setKernel]
  refine ⟨?_, h.reinit, ?_⟩
  · intro other
    by_cases heq : other = timer
    · subst heq
      refine (h.fine other).rearmed rfl rfl rfl rfl ?_ ?_
      · rw [State.kernelClock, State.kernelClock, hself, hkernel]
        rfl
      · intro _ k hsome
        cases hself.symm.trans hsome
        rfl
    · exact (h.fine other).same ⟨rfl, rfl, rfl, rfl, Function.update_of_ne heq _ _, id, id⟩
  · intro other htarget hleaving
    have hnone := h.deleted other htarget hleaving
    have hne : other ≠ timer := by
      rintro rfl
      cases hkernel.symm.trans hnone
    exact (Function.update_of_ne hne _ _).trans hnone

theorem step (h : Configured s) (htidy : Tidy build P) (hinv : Inv build P s) {action : Action}
    (hsettime : settimeSucceeds action = true) (hstep : step build s action = some t) :
    Configured t := by
  cases step_moves hstep with
  | newTimer hphp _ hfresh => exact h.new hinv hphp hfresh rfl
  | newProfiler hphp _ hfresh => exact h.new hinv hphp hfresh rfl
  | setEventType hready => exact h.set_object hinv hready.1 hready.2 nofun
  | rejectEventType => exact h.warn _
  | setInterval hready => exact h.set_other hinv hready.1 hready.2 rfl rfl
  | setPeriod hready => exact h.set_other hinv hready.1 hready.2 rfl rfl
  | setCallback hready => exact h.set_other hinv hready.1 hready.2 rfl rfl
  | rejectCallback => exact h.warn _
  | start hready =>
      simp only [settimeSucceeds, Bool.and_eq_true] at hsettime
      obtain ⟨⟨hstop, hhalt⟩, hstart⟩ := hsettime
      exact h.start hinv hready.1 htidy hready.2 hstop hhalt hstart
  | stop hready =>
      cases hsettime
      exact h.stop_object hinv hready.1 _
  | free hready =>
      cases hsettime
      exact h.free_object hinv hready.1 _
  | expire hkernel => exact h.expire hkernel
  | tick => exact h
  | delete hstack _ hnext => exact h.delete hinv hstack hnext
  | unlink hstack hfirst hlast _ hnext =>
      exact h.passive
        (destroyNext_passive hstack (hinv.below_of_stack hstack) hfirst hlast hnext)
  | finish hstack hcore hnext =>
      exact h.finish htidy hinv hstack (htidy.step hinv.core rfl hcore)
        (destroyNext_finished hnext)
  | core hbackground hcore =>
      exact h.passive (background_passive hinv.below hbackground hcore)

end Configured

theorem run_configured (htidy : Tidy build P) {actions : List Action}
    (hsettime : ∀ action ∈ actions, settimeSucceeds action = true)
    (hrun : Transition.run (step build) State.initial actions = some s) : Configured s := by
  have hboth : Inv build P s ∧ Configured s := by
    refine Transition.run_invariant_of (fun action => settimeSucceeds action = true)
      (fun s => Inv build P s ∧ Configured s) ?_ hsettime
      ⟨initial_inv htidy, initial_configured⟩ hrun
    intro s action next hallowed hs hstep
    exact ⟨hs.1.step htidy hstep, hs.2.step htidy hs.1 hallowed hstep⟩
  exact hboth.2

/-- The object whose start returns in a step, with whether the call has tried to
initialise the timer in vain. -/
def startReturns (s : State) (action : Action) (next : State) : Option (TimerId × Bool) :=
  if next.pending.isSome then none else
  match action, s.pending with
  | .start timer outcome, _ =>
      some (timer, ((s.objects timer).needReinit || !(s.core.timers timer).isValid) &&
        !outcome.init)
  | .destroyNext, some (.reinit _ timer outcome) => some (timer, !outcome.init)
  | _, _ => none

/-- What a start leaves behind: a running timer, armed by this very call with
what the object says, or a timer that neither runs nor is armed. -/
def Applied (s : State) (timer : TimerId) (failed : Bool) : Prop :=
  ((s.core.timers timer).isRunning = true ∧
      s.kernel timer = some ⟨(s.objects timer).eventType, some ⟨s.calls,
        (s.objects timer).period,
        effectiveInitial (s.objects timer).period (s.objects timer).initial⟩⟩ ∨
    (s.core.timers timer).isRunning = false ∧ ∀ k, s.kernel timer = some k → k.armed = none) ∧
  ((s.core.timers timer).isRunning = false ↔ failed = true ∨
    (s.objects timer).period.isZero = true ∧ (s.objects timer).initial.isZero = true)

theorem effectiveInitial_isZero (period initial : Timespec) :
    (effectiveInitial period initial).isZero = true ↔
      period.isZero = true ∧ initial.isZero = true := by
  unfold effectiveInitial
  split
  · simp_all
  · simp_all

/-- `excimer_timer_start` on a stopped timer of the right clock. -/
theorem startTimer_applied {timer : TimerId} (hvalid : (s.core.timers timer).isValid = true)
    (hstopped : (s.core.timers timer).isRunning = false)
    (hkernel : s.kernel timer = some ⟨(s.objects timer).eventType, none⟩) :
    Applied (s.startTimer timer true) timer false := by
  rw [State.startTimer_eq]
  set period := (s.objects timer).period with hperiod
  set initial := (s.objects timer).initial with hinitial
  have hflagged := timerStart_flagged s.core timer period initial true
  have hself : ((Timer.timerStart s.core timer period initial true).timers timer).isRunning =
      !(effectiveInitial period initial).isZero := by
    rw [hflagged.self, hstopped]
    simp [starts, hvalid]
  have hiff := effectiveInitial_isZero period initial
  unfold Applied
  dsimp only
  rw [hself, ← hperiod, ← hinitial, ← hiff]
  cases hzero : (effectiveInitial period initial).isZero with
  | true =>
      refine ⟨Or.inr ⟨rfl, ?_⟩, by simp⟩
      intro k hsome
      rw [rearm, starts, hzero] at hsome
      simp only [Bool.not_true, Bool.and_false, Bool.false_and] at hsome
      cases hkernel.symm.trans hsome
      rfl
  | false =>
      refine ⟨Or.inl ⟨rfl, ?_⟩, by simp⟩
      rw [rearm, starts, hzero, hvalid]
      simp [hkernel]

/-- The rest of a start from the initialisation on. -/
theorem reinit_applied (kind : Kind) {timer : TimerId} (hmem : timer ∈ s.live)
    {outcome : Outcome} (hstart : outcome.start = true) :
    Applied (s.reinit build kind timer outcome) timer (!outcome.init) := by
  have hinit := timerInit_initialised build s.core timer outcome.init
  have hkernel := State.initTimer_kernel build s kind timer outcome.init
  unfold State.reinit
  dsimp only
  cases hok : outcome.init with
  | false =>
      rw [hok] at hinit hkernel
      rw [if_neg (by simp)]
      refine ⟨Or.inr ⟨hinit.running, ?_⟩, ?_⟩
      · intro k hsome
        cases hkernel.symm.trans hsome
      · simp only [Bool.not_false, true_or, iff_true]
        exact hinit.running
  | true =>
      rw [hok] at hinit hkernel
      rw [if_pos rfl, hstart, Bool.not_true]
      set initialised := s.initTimer build kind timer true with hstate
      have hlive : timer ∈ initialised.live := hmem
      rw [State.setObject_eq hlive]
      apply startTimer_applied
      · exact hinit.valid
      · exact hinit.running
      · dsimp only
        rw [hkernel, if_pos rfl, Function.update_self]
        rfl

/-- A timer that has been stopped successfully neither runs nor is armed. -/
theorem stopRunning_stopped (hinv : Inv build P s) (timer : TimerId) :
    ((s.stopRunning timer true).core.timers timer).isRunning = false := by
  unfold State.stopRunning State.stopObject
  cases hrunning : (s.core.timers timer).isRunning with
  | false =>
      rw [if_neg (by simp)]
      exact hrunning
  | true =>
      have hvalid := hinv.running timer hrunning
      rw [if_pos rfl, if_pos hvalid, State.stopTimer_eq]
      dsimp only
      rw [(timerStop_flagged s.core timer true).self]
      simp [stops, hvalid, hrunning]

theorem stopRunning_kept (s : State) (timer : TimerId) (ok : Bool) :
    (s.stopRunning timer ok).objects = s.objects ∧
      ((s.stopRunning timer ok).core.timers timer).isValid = (s.core.timers timer).isValid := by
  unfold State.stopRunning State.stopObject
  split
  · split
    · rw [State.stopTimer_eq]
      exact ⟨rfl, ((timerStop_flagged s.core timer ok).timers timer).1⟩
    · exact ⟨rfl, rfl⟩
  · exact ⟨rfl, rfl⟩

/-- A start that returns at once has applied the configuration. -/
theorem start_applied (hconf : Configured s) (htidy : Tidy build P) (hinv : Inv build P s)
    (hphp : s.core.runsPhp 0 = true) {timer : TimerId} (hmem : timer ∈ s.live)
    {outcome : Outcome} (hstop : outcome.stop = true) (hstart : outcome.start = true)
    (hreturns : (s.start build timer outcome).pending = none) :
    Applied (s.start build timer outcome) timer
      (((s.objects timer).needReinit || !(s.core.timers timer).isValid) && !outcome.init) := by
  have hstopped := stopRunning_stopped hinv timer
  obtain ⟨hobjects, hvalid⟩ := stopRunning_kept s timer true
  have hinv' := hinv.stop_running htidy hphp timer true
  have hconf' := hconf.stop_running hinv hphp timer
  have hphp' := (State.stopRunning_runsPhp s timer true).trans hphp
  have hmem' : timer ∈ (s.stopRunning timer true).live := by
    rw [State.stopRunning_live]
    exact hmem
  rw [State.start_eq, hstop] at hreturns ⊢
  rw [← hobjects, ← hvalid]
  set stopped := s.stopRunning timer true
  unfold State.startObject at hreturns ⊢
  rw [State.beginStart_of_mem hmem'] at hreturns ⊢
  dsimp only at hreturns ⊢
  cases hneed : (stopped.objects timer).needReinit || !(stopped.core.timers timer).isValid with
  | true =>
      rw [hneed, if_pos rfl] at hreturns
      rw [if_pos rfl, Bool.true_and]
      split at hreturns
      · rw [State.destroyTimer_eq] at hreturns
        cases hreturns
      · next hinvalid =>
          rw [if_neg hinvalid]
          have hcounted : timer ∈ State.live { stopped with calls := stopped.calls + 1 } := hmem'
          exact reinit_applied _ hcounted hstart
  | false =>
      rw [if_neg (by simp), Bool.false_and, hstart]
      rw [Bool.or_eq_false_iff] at hneed
      obtain ⟨hclean, htrue⟩ := hneed
      have hvalid' : (stopped.core.timers timer).isValid = true := by simpa using htrue
      obtain ⟨_, hclock⟩ := hconf'.clock_of_clean hinv' hphp' hmem' hclean
      obtain ⟨k, hkernel, hk⟩ := Option.map_eq_some_iff.mp hclock
      have hnone := (hconf'.fine timer).disarmed hstopped k hkernel
      refine startTimer_applied hvalid' hstopped ?_
      dsimp only
      rw [hkernel, ← hk, ← hnone]

/-- A start that had to wait for the destruction has applied it, too. -/
theorem resume_applied (hinv : Inv build P s) {kind : Kind} {timer : TimerId}
    {outcome : Outcome} (hpending : s.pending = some (.reinit kind timer outcome))
    (hstart : outcome.start = true) (hstep : step build s .destroyNext = some t)
    (hreturns : t.pending = none) : Applied t timer (!outcome.init) := by
  cases step_moves hstep with
  | delete => cases hpending.symm.trans hreturns
  | unlink => cases hpending.symm.trans hreturns
  | @finish target rest next hstack =>
      have hwaiting := hinv.waiting
      rw [hpending, hstack] at hwaiting
      obtain rfl : timer = target := Option.some.inj hwaiting
      have hmem : timer ∈ State.live { s with core := next, pending := none } := by
        apply hinv.live
        exact (hinv.destroying timer (by rw [hstack]; rfl)).1
      simp only [State.resume, hpending]
      exact reinit_applied kind hmem hstart

/-- Every start that returns has applied the configuration. -/
theorem Configured.applied (hconf : Configured s) (htidy : Tidy build P) (hinv : Inv build P s)
    {action : Action} (hallowed : settimeSucceeds action = true)
    (hstep : Object.step build s action = some t) {timer : TimerId} {failed : Bool}
    (hreturns : startReturns s action t = some (timer, failed)) : Applied t timer failed := by
  unfold startReturns at hreturns
  obtain ⟨hpending, hreturns⟩ := Option.ite_none_left_eq_some.mp hreturns
  have hnone : t.pending = none := by simpa using hpending
  split at hreturns
  case h_1 other outcome _ =>
    cases hreturns
    simp only [settimeSucceeds, Bool.and_eq_true] at hallowed
    cases step_moves hstep with
    | start hready =>
        exact start_applied hconf htidy hinv hready.1 hready.2 hallowed.1.1 hallowed.2 hnone
  case h_2 kind other outcome hwaiting _ =>
    cases hreturns
    obtain ⟨_, hstart⟩ := hconf.reinit kind timer outcome hwaiting
    exact resume_applied hinv hwaiting hstart hstep hnone
  case h_3 => cases hreturns

/-- The event type of an object after an action: `setEventType` counts if its
argument is accepted. -/
def accepted (timer : TimerId) (current : EventType) : Action → EventType
  | .new other _ _ => if other = timer then .real else current
  | .setEventType other value =>
      if other = timer then (EventType.ofLong value).getD current else current
  | _ => current

section EventType

theorem setObject_eventType (s : State) (timer other : TimerId) (object : Obj) :
    ((s.setObject timer object).objects other).eventType =
      if timer = other then object.eventType else (s.objects other).eventType := by
  by_cases heq : timer = other
  · simp [State.setObject, heq]
  · simp [State.setObject, heq, Ne.symm heq]

theorem setObject_keeps {s : State} {timer : TimerId} {object : Obj}
    (hobject : object.eventType = (s.objects timer).eventType) (other : TimerId) :
    ((s.setObject timer object).objects other).eventType = (s.objects other).eventType := by
  rw [setObject_eventType]
  split
  · next heq => rw [hobject, heq]
  · rfl

/-- Two objects that differ in `need_reinit` at most. -/
def SameSettings (a b : Obj) : Prop := b = { a with needReinit := b.needReinit }

theorem SameSettings.eventType {a b : Obj} (hsame : SameSettings a b) :
    b.eventType = a.eventType := by
  rw [hsame]

theorem setObject_settings {s : State} {timer : TimerId} {object : Obj}
    (hobject : SameSettings (s.objects timer) object) (other : TimerId) :
    SameSettings (s.objects other) ((s.setObject timer object).objects other) := by
  by_cases heq : timer = other
  · subst heq
    simpa using hobject
  · simp [State.setObject, Ne.symm heq, SameSettings]

theorem reinit_settings (s : State) (kind : Kind) (timer other : TimerId) (outcome : Outcome) :
    SameSettings (s.objects other) ((s.reinit build kind timer outcome).objects other) := by
  unfold State.reinit
  dsimp only
  split
  · rw [State.startTimer_eq]
    exact setObject_settings (s := s.initTimer build kind timer outcome.init) (by rfl) other
  · rfl

theorem startObject_settings (s : State) (kind : Kind) (timer other : TimerId)
    (outcome : Outcome) :
    SameSettings (s.objects other) ((s.startObject build kind timer outcome).objects other) := by
  have hbegin : (s.beginStart timer).objects = s.objects := State.touch_objects s timer
  rw [← hbegin]
  unfold State.startObject
  dsimp only
  split
  · split
    · rw [State.destroyTimer_eq]
      rfl
    · exact reinit_settings _ kind timer other outcome
  · rw [State.startTimer_eq]
    rfl

theorem resume_settings (s : State) (timer : TimerId) :
    SameSettings (s.objects timer) ((s.resume build).objects timer) := by
  unfold State.resume
  split
  · rfl
  · next kind other outcome _ =>
      exact reinit_settings { s with pending := none } kind other timer outcome
  · rfl

/-- The start of an object writes no setting. -/
theorem start_settings (s : State) (timer other : TimerId) (outcome : Outcome) :
    SameSettings (s.objects other) ((s.start build timer outcome).objects other) := by
  rw [State.start_eq, ← (stopRunning_kept s timer outcome.stop).1]
  exact startObject_settings _ _ timer other outcome

theorem stopObject_objects (s : State) (timer : TimerId) (ok : Bool) :
    (s.stopObject timer ok).objects = s.objects := by
  unfold State.stopObject
  split
  · rw [State.stopTimer_eq]
  · rfl

theorem freeObject_objects (s : State) (timer : TimerId) (halt : Bool) :
    (s.freeObject build timer halt).objects = s.objects := by
  unfold State.freeObject
  split
  · rw [State.destroyTimer_eq]
  · rfl

theorem new_eventType (s : State) (timer other : TimerId) {object : Obj}
    (hobject : object.eventType = .real) :
    ((s.new timer object).objects other).eventType =
      if timer = other then .real else (s.objects other).eventType := by
  by_cases heq : timer = other
  · simp [State.new, heq, hobject]
  · simp [State.new, heq, Ne.symm heq]

theorem step_eventType {action : Action} (hstep : step build s action = some t)
    (timer : TimerId) :
    (t.objects timer).eventType = accepted timer (s.objects timer).eventType action := by
  cases step_moves hstep with
  | newTimer => exact new_eventType s _ timer rfl
  | newProfiler => exact new_eventType s _ timer rfl
  | setEventType _ hvalue => simp [accepted, setObject_eventType, hvalue]
  | rejectEventType _ hvalue => simp [accepted, State.warn, hvalue]
  | setInterval => exact setObject_keeps (by rfl) timer
  | setPeriod => exact setObject_keeps (by rfl) timer
  | setCallback => exact setObject_keeps (by rfl) timer
  | rejectCallback => rfl
  | start => exact (start_settings s _ timer _).eventType
  | stop => exact congrArg (fun objects => (objects timer).eventType) (stopObject_objects s _ _)
  | free => exact congrArg (fun objects => (objects timer).eventType) (freeObject_objects s _ _)
  | expire => rfl
  | tick => rfl
  | delete => rfl
  | unlink => rfl
  | finish => exact (resume_settings _ timer).eventType
  | core => rfl

end EventType

/-- The event type that was accepted last in a history. -/
def lastEventType (timer : TimerId) (actions : List Action) : EventType :=
  actions.foldl (accepted timer) .real

theorem run_eventType {actions : List Action}
    (hrun : Transition.run (step build) s actions = some t)
    (timer : TimerId) :
    (t.objects timer).eventType = actions.foldl (accepted timer) (s.objects timer).eventType := by
  induction actions generalizing s with
  | nil =>
      cases hrun
      rfl
  | cons action rest ih =>
      obtain ⟨next, hstep, hrest⟩ := Transition.run_cons hrun
      rw [List.foldl_cons, ← step_eventType hstep timer]
      exact ih hrest

/-- If `timer_settime` does not fail, then in every history an object that needs
no initialisation has a valid timer that was created on its event type, which is
the one accepted last; an event type that is not accepted leaves only a warning;
and every start that returns has armed the timer with the configuration of the
object, or has left it stopped and disarmed because the initialisation failed or
there is nothing to wait for. -/
theorem start_applies_configuration {build : Build} (hbuild : build = .nonZts ∨ build = .zts)
    {actions : List Action} (hsettime : ∀ action ∈ actions, settimeSucceeds action = true)
    {s : State} (hrun : Transition.run (step build) State.initial actions = some s) :
    (∀ timer, (s.objects timer).eventType = lastEventType timer actions) ∧
      (∀ timer ∈ s.live, s.pending ≠ some (.release timer) →
        (s.objects timer).needReinit = false → (s.core.timers timer).isValid = true ∧
          s.kernelClock timer = some (s.objects timer).eventType) ∧
      (∀ timer value next, EventType.ofLong value = none →
        step build s (.setEventType timer value) = some next →
          next = s.warn "Invalid event type") ∧
      ∀ action next timer failed, settimeSucceeds action = true →
        step build s action = some next → startReturns s action next = some (timer, failed) →
          Applied next timer failed := by
  obtain ⟨P, htidy⟩ := exists_tidy hbuild
  have hinv := run_inv htidy hrun
  have hconf := run_configured htidy hsettime hrun
  refine ⟨run_eventType hrun, fun timer => (hconf.fine timer).clock, ?_, ?_⟩
  · intro timer value next hvalue hstep
    cases step_moves hstep with
    | setEventType _ hsome => cases hvalue.symm.trans hsome
    | rejectEventType => rfl
  · intro action next timer failed hallowed hstep hreturns
    exact hconf.applied htidy hinv hallowed hstep hreturns

/-- A running timer is moved to the CPU clock; the second start is about to
return. -/
def moved : List Action :=
  [.new 5 .timer ⟨0, 0⟩, .setPeriod 5 ⟨1, 0⟩ ⟨0, 0⟩, .start 5 {}, .setEventType 5 7,
    .setEventType 5 1, .start 5 {}, .destroyNext, .destroyNext, .destroyNext, .destroyNext]

theorem start_applies_configuration_moved :
    ∃ s next, Transition.run (step .nonZts) State.initial moved = some s ∧
      step .nonZts s .destroyNext = some next ∧
      startReturns s .destroyNext next = some (5, false) ∧ Applied next 5 false ∧
      next.kernel 5 = some ⟨.cpu, some ⟨2, ⟨1, 0⟩, ⟨1, 0⟩⟩⟩ := by
  obtain ⟨next, hnext, hcheck⟩ := Transition.run_check (step .nonZts) State.initial
    (moved ++ [.destroyNext])
    (fun next => next.kernel 5 == some ⟨.cpu, some ⟨2, ⟨1, 0⟩, ⟨1, 0⟩⟩⟩ && next.pending.isNone)
    (by decide)
  simp only [Bool.and_eq_true, beq_iff_eq] at hcheck
  obtain ⟨s, hrun, hstep⟩ := Transition.run_last hnext
  obtain ⟨s', hrun', hwaiting⟩ := Transition.run_check (step .nonZts) State.initial moved
    (fun s => s.pending == some (.reinit .timer 5 {})) (by decide)
  obtain rfl : s = s' := Option.some.inj (hrun.symm.trans hrun')
  rw [beq_iff_eq] at hwaiting
  have hreturns : startReturns s .destroyNext next = some (5, false) := by
    simp [startReturns, hwaiting, Option.isNone_iff_eq_none.mp hcheck.2]
  obtain ⟨_, _, _, happlied⟩ :=
    start_applies_configuration (Or.inl rfl) (by decide : ∀ action ∈ moved, _) hrun
  exact ⟨s, next, hrun, hstep, hreturns, happlied _ next 5 false rfl hstep hreturns, hcheck.1⟩

end Excimer.Object
