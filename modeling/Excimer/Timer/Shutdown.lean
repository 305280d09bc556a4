import Excimer.Timer.Posix

/-!
The end of a timer in the POSIX backend. The signal that reports an expiry and
the one that ends the handler thread are the same, so the argument rests on an
order: `killed` is set before the signal is sent, and the thread tests it after
every wake-up. Hence a thread that is waited for has exited, has been woken, or
has a signal pending.
-/

namespace Excimer.Timer.Posix

/-- The step of the library that `timer` is in. -/
def State.phase (b : State) (timer : TimerId) : Option LibraryPc :=
  if (b.core.stack 0).head? = some (.destroy timer .timerlib) then b.library else none

/-- The phases in which the handler thread has not been told to exit. -/
def early : Option LibraryPc → Bool
  | none | some .stop | some .gracefulExit => true
  | some .kill | some .join | some .delete => false

def ThreadPc.count : ThreadPc → Int
  | .woken signal => signal.count
  | .notifying overrun => overrun + 1
  | _ => 0

/-- The expiries on their way from the kernel to `excimer_timer_handle`. -/
def TimerlibTimer.upstream (t : TimerlibTimer) : Int :=
  (t.pending.map Signal.count).sum + t.thread.count

/-- What the library knows about one timer: `handler` and `running` are the
handler thread and `is_running` as `excimer_timer.c` sees them, and `entered`
is the sum of the expiries `excimer_timer_handle` has been told. -/
structure TimerOk (phase : Option LibraryPc) (t : TimerlibTimer) (handler : Option Handler)
    (running : Bool) (entered : Int) : Prop where
  absent : t.thread = .absent → handler = none
  ended : handler = none → t.thread = .absent ∨ t.thread = .exited
  storing : t.thread = .storing ↔ ∃ number, handler = some ⟨number, true⟩
  pending_range : ∀ overrun, .timer overrun ∈ t.pending → InRange overrun
  thread_range : ∀ overrun, t.thread = .woken (.timer overrun) ∨ t.thread = .notifying overrun →
    InRange overrun
  alive : handler ≠ none → early phase = true →
    t.killed = false ∧ t.threadValid = true ∧ t.thread ≠ .exited ∧
      t.upstream + entered + t.discarded = t.reported
  killed : phase = some .kill ∨ phase = some .join → t.killed = true
  sent : phase = some .join → t.pending ≠ [] ∨ (∃ signal, t.thread = .woken signal) ∨
    t.thread = .exited
  settled : phase = some .join → t.rearmed = false
  gone : phase = some .delete → t.thread = .exited
  disarmed : phase = none → handler ≠ none → running = false → t.armed = none

structure Inv (b : State) : Prop where
  timers : ∀ timer, TimerOk (b.phase timer) (b.timers timer) (b.core.handlers timer)
    (b.core.timers timer).isRunning (handled timer b.core.trace)
  library : b.library.isSome ↔ ∃ timer, (b.core.stack 0).head? = some (.destroy timer .timerlib)

theorem initial_inv : Inv State.initial where
  timers timer := by
    constructor <;> simp [State.initial, Timer.State.initial, State.phase]
  library := by simp [State.initial, Timer.State.initial]

section Phase

variable {b next : State} {order : List TimerId}

theorem phase_of_not_destroying
    (h : ∀ timer, (b.core.stack 0).head? ≠ some (.destroy timer .timerlib)) (timer : TimerId) :
    b.phase timer = none := if_neg (h timer)

theorem Inv.phase_of_library_none (h : Inv b) (hnone : b.library = none) (timer : TimerId) :
    b.phase timer = none := by
  apply phase_of_not_destroying
  intro other hhead
  have hsome := h.library.mpr ⟨other, hhead⟩
  simp [hnone] at hsome

theorem Inv.library_none (h : Inv b)
    (hhead : ∀ timer, (b.core.stack 0).head? ≠ some (.destroy timer .timerlib)) :
    b.library = none := by
  rw [← Option.not_isSome_iff_eq_none, h.library]
  rintro ⟨timer, hdestroy⟩
  exact hhead timer hdestroy

/-- A step of the PHP thread outside of the library. -/
theorem Inv.outside (h : Inv b) (hbefore : b.library = none) (hafter : next.library = none)
    (hhead : ∀ timer, (next.core.stack 0).head? ≠ some (.destroy timer .timerlib))
    (hok : ∀ timer, TimerOk none (b.timers timer) (b.core.handlers timer)
        (b.core.timers timer).isRunning (handled timer b.core.trace) →
      TimerOk none (next.timers timer) (next.core.handlers timer)
        (next.core.timers timer).isRunning (handled timer next.core.trace)) : Inv next := by
  refine ⟨?_, ?_⟩
  · intro timer
    rw [phase_of_not_destroying hhead]
    apply hok
    rw [← h.phase_of_library_none hbefore timer]
    exact h.timers timer
  · rw [hafter]
    simp [hhead]

/-- A step that changes one timer of the library only. -/
theorem Inv.change_one (h : Inv b) (timer : TimerId)
    (hstack : next.core.stack = b.core.stack) (hlibrary : next.library = b.library)
    (hothers : ∀ other, other ≠ timer → next.timers other = b.timers other ∧
      next.core.handlers other = b.core.handlers other ∧
      (next.core.timers other).isRunning = (b.core.timers other).isRunning ∧
      handled other next.core.trace = handled other b.core.trace)
    (hself : TimerOk (b.phase timer) (next.timers timer) (next.core.handlers timer)
      (next.core.timers timer).isRunning (handled timer next.core.trace)) : Inv next := by
  have hphase (other : TimerId) : next.phase other = b.phase other := by
    simp only [State.phase, hstack, hlibrary]
  refine ⟨?_, ?_⟩
  · intro other
    rw [hphase]
    by_cases heq : other = timer
    · exact heq ▸ hself
    · obtain ⟨ht, hhandler, hrunning, hhandled⟩ := hothers other heq
      rw [ht, hhandler, hrunning, hhandled]
      exact h.timers other
  · rw [hlibrary, hstack]
    exact h.library

/-- A step that changes one timer of the library and nothing else. -/
theorem Inv.set_timer (h : Inv b) (timer : TimerId) (t : TimerlibTimer)
    (hok : TimerOk (b.phase timer) t (b.core.handlers timer)
      (b.core.timers timer).isRunning (handled timer b.core.trace)) :
    Inv (b.setTimer timer t) := by
  refine h.change_one timer rfl rfl ?_ ?_
  · intro other hne
    exact ⟨Function.update_of_ne hne .., rfl, rfl, rfl⟩
  · simpa [Layered.setTimer] using hok

end Phase

/-- An expiry the kernel reports is added to the signals, one it drops is not. -/
theorem sendExpiry_spec {pending after : List Signal} {report : Report}
    (hsend : sendExpiry pending report = some after)
    (hrange : ∀ overrun, .timer overrun ∈ pending → InRange overrun) :
    (after.map Signal.count).sum = (pending.map Signal.count).sum + report.count ∧
      (∀ overrun, .timer overrun ∈ after → InRange overrun) ∧ after ≠ [] := by
  cases report with
  | queued =>
      cases hsend
      refine ⟨by simp [Signal.count, Report.count], ?_, by simp⟩
      intro overrun hmem
      rcases List.mem_append.mp hmem with hold | hnew
      · exact hrange overrun hold
      · simp only [List.mem_singleton, Signal.timer.injEq] at hnew
        subst hnew
        exact ⟨by omega, by decide⟩
  | merged =>
      change mergeExpiry pending = some after at hsend
      induction pending generalizing after with
      | nil => cases hsend
      | cons signal rest ih =>
          cases signal with
          | timer first =>
              obtain ⟨hbound, hmerged⟩ := Option.ite_none_right_eq_some.mp hsend
              cases hmerged
              have hfirst := hrange first (List.mem_cons_self ..)
              refine ⟨?_, ?_, by simp⟩
              · simp only [List.map_cons, List.sum_cons, Signal.count, Report.count]
                omega
              · intro overrun hmem
                rcases List.mem_cons.mp hmem with heq | hrest
                · cases heq
                  unfold InRange at hfirst ⊢
                  omega
                · exact hrange overrun (List.mem_cons_of_mem _ hrest)
          | kill =>
              obtain ⟨merged, hmerged, rfl⟩ := Option.map_eq_some_iff.mp hsend
              have hrest (overrun : Int) (hin : .timer overrun ∈ rest) : InRange overrun :=
                hrange overrun (List.mem_cons_of_mem _ hin)
              obtain ⟨hsum, hmem, _⟩ := ih hrest hmerged
              refine ⟨?_, ?_, by simp⟩
              · simp only [List.map_cons, List.sum_cons, hsum]
                omega
              · intro overrun hin
                exact hmem overrun (by simpa using hin)
  | dropped =>
      simp only [sendExpiry] at hsend
      split at hsend
      · cases hsend
      · next hne =>
          cases hsend
          exact ⟨by simp [Report.count], hrange, hne⟩

/-- What is kept when the expiries are discarded stands for none. -/
theorem sum_count_isKill (pending : List Signal) :
    ((pending.filter Signal.isKill).map Signal.count).sum = 0 := by
  induction pending with
  | nil => rfl
  | cons signal rest ih =>
      cases signal with
      | timer overrun => simpa [List.filter_cons, Signal.isKill] using ih
      | kill => simpa [List.filter_cons, Signal.isKill, Signal.count] using ih

namespace TimerOk

variable {phase : Option LibraryPc} {t t' : TimerlibTimer} {handler : Option Handler}
  {running : Bool} {entered : Int}

theorem expire (h : TimerOk phase t handler running entered) {report : Report}
    (hexpire : t.expire report = some t') : TimerOk phase t' handler running entered := by
  unfold TimerlibTimer.expire at hexpire
  split at hexpire
  case h_1 => cases hexpire
  case h_2 interval harmed =>
    obtain ⟨after, hsend, rfl⟩ := Option.map_eq_some_iff.mp hexpire
    obtain ⟨hsum, hrange, hne⟩ := sendExpiry_spec hsend h.pending_range
    refine ⟨h.absent, h.ended, h.storing, hrange, h.thread_range, ?_, h.killed, ?_, fun _ => rfl,
      h.gone, ?_⟩
    · intro hhandler hearly
      obtain ⟨hkilled, hvalid, hthread, hcount⟩ := h.alive hhandler hearly
      refine ⟨hkilled, hvalid, hthread, ?_⟩
      unfold TimerlibTimer.upstream at hcount ⊢
      simp only [hsum]
      omega
    · exact fun _ => Or.inl hne
    · intro hphase hhandler hrunning
      rw [h.disarmed hphase hhandler hrunning] at harmed
      cases harmed

theorem wake (h : TimerOk phase t handler running entered) {signal : Signal}
    (hwake : t.wake signal = some t') : TimerOk phase t' handler running entered := by
  obtain ⟨⟨hwaiting, hmem⟩, heq⟩ := Option.ite_none_right_eq_some.mp hwake
  cases heq
  refine ⟨by simp, ?_, ?_, ?_, ?_, ?_, h.killed, ?_, fun _ => rfl, ?_, h.disarmed⟩
  · simpa [hwaiting] using h.ended
  · simpa [hwaiting] using h.storing
  · exact fun overrun hin => h.pending_range overrun (List.mem_of_mem_erase hin)
  · intro overrun hthread
    simp only [ThreadPc.woken.injEq, reduceCtorEq, or_false] at hthread
    exact h.pending_range overrun (hthread ▸ hmem)
  · intro hhandler hearly
    obtain ⟨hkilled, hvalid, _, hcount⟩ := h.alive hhandler hearly
    refine ⟨hkilled, hvalid, by simp, ?_⟩
    have hsum := List.sum_map_erase Signal.count hmem
    simp only [TimerlibTimer.upstream, hwaiting, ThreadPc.count] at hcount ⊢
    omega
  · exact fun _ => Or.inr (Or.inl ⟨signal, rfl⟩)
  · intro hphase
    have hgone := h.gone hphase
    rw [hwaiting] at hgone
    cases hgone

/-- The signals that are discarded leave the way to `excimer_timer_handle`. By
then nobody waits for them: `pthread_kill` has not been called yet. -/
theorem discard (h : TimerOk phase t handler running entered) {lost : Int}
    (hdiscard : t.discard lost = some t') : TimerOk phase t' handler running entered := by
  obtain ⟨⟨hrearmed, hlost⟩, heq⟩ := Option.ite_none_right_eq_some.mp hdiscard
  cases heq
  refine ⟨h.absent, h.ended, h.storing, ?_, h.thread_range, ?_, h.killed, ?_, fun _ => rfl,
    h.gone, h.disarmed⟩
  · exact fun overrun hin => h.pending_range overrun (List.mem_of_mem_filter hin)
  · intro hhandler hearly
    obtain ⟨hkilled, hvalid, hthread, hcount⟩ := h.alive hhandler hearly
    refine ⟨hkilled, hvalid, hthread, ?_⟩
    unfold TimerlibTimer.upstream at hcount ⊢
    simp only [sum_count_isKill]
    omega
  · intro hphase
    rw [h.settled hphase] at hrearmed
    cases hrearmed

theorem handler_ne_none (h : TimerOk phase t handler running entered)
    (hthread : t.thread ≠ .absent) (hexited : t.thread ≠ .exited) : handler ≠ none := by
  intro hnone
  rcases h.ended hnone with habsent | hgone
  · exact hthread habsent
  · exact hexited hgone

/-- The handler thread moves on without exiting and keeps its expiries or hands
them to `excimer_timer_handle`. -/
theorem set_thread (h : TimerOk phase t handler running entered) {thread : ThreadPc}
    {handler' : Option Handler} {entered' : Int} (hhandler : handler ≠ none)
    (hhandler' : handler' ≠ none) (hold : t.thread ≠ .exited) (hnew : thread ≠ .exited)
    (hpresent : thread ≠ .absent)
    (hstoring : thread = .storing ↔ ∃ number, handler' = some ⟨number, true⟩)
    (hrange : ∀ overrun, thread = .woken (.timer overrun) ∨ thread = .notifying overrun →
      InRange overrun)
    (hcount : thread.count + entered' = t.thread.count + entered)
    (hsent : phase = some .join → t.pending ≠ []) :
    TimerOk phase { t with thread := thread } handler' running entered' := by
  refine ⟨fun heq => absurd heq hpresent, fun heq => absurd heq hhandler', hstoring,
    h.pending_range, hrange, ?_, h.killed, ?_, h.settled, ?_, ?_⟩
  · intro _ hearly
    obtain ⟨hkilled, hvalid, _, hsum⟩ := h.alive hhandler hearly
    refine ⟨hkilled, hvalid, hnew, ?_⟩
    unfold TimerlibTimer.upstream at hsum ⊢
    simp only
    omega
  · exact fun hphase => Or.inl (hsent hphase)
  · exact fun hphase => absurd (h.gone hphase) hold
  · exact fun hphase _ => h.disarmed hphase hhandler

/-- A thread that has been told to exit does so at its next wake-up. -/
theorem test (h : TimerOk phase t handler running entered) (htest : t.test = some t') :
    TimerOk phase t' handler running entered := by
  unfold TimerlibTimer.test at htest
  split at htest
  case h_2 => cases htest
  case h_1 signal hwoken =>
    have hhandler := h.handler_ne_none (by simp [hwoken]) (by simp [hwoken])
    have hstoring := h.storing
    rw [hwoken] at hstoring
    split at htest
    · next hkilled =>
        cases htest
        refine ⟨by simp, fun _ => Or.inr rfl, ?_, h.pending_range, by simp, ?_, h.killed, ?_,
          h.settled, fun _ => rfl, h.disarmed⟩
        · simpa using hstoring
        · intro _ hearly
          have halive := (h.alive hhandler hearly).1
          rw [hkilled] at halive
          cases halive
        · exact fun _ => Or.inr (Or.inr rfl)
    · next hkilled =>
        have hjoin (hphase : phase = some .join) : t.pending ≠ [] :=
          absurd (h.killed (Or.inr hphase)) hkilled
        cases signal with
        | timer overrun =>
            cases htest
            refine h.set_thread hhandler hhandler (by simp [hwoken]) (by simp) (by simp)
              (by simpa using hstoring) ?_ (by simp [hwoken, ThreadPc.count, Signal.count]) hjoin
            intro other hthread
            have heq : overrun = other := by simpa using hthread
            exact heq ▸ h.thread_range overrun (Or.inl hwoken)
        | kill =>
            cases htest
            exact h.set_thread hhandler hhandler (by simp [hwoken]) (by simp) (by simp)
              (by simpa using hstoring) (by simp)
              (by simp [hwoken, ThreadPc.count, Signal.count]) hjoin

/-- The handler thread has entered `excimer_timer_handle`. -/
theorem notify (h : TimerOk phase t handler running entered) {overrun : Int}
    (hthread : t.thread = .notifying overrun) (number : Nat) :
    TimerOk phase { t with thread := .storing } (some ⟨number, true⟩) running
      (entered + (overrun + 1)) := by
  have hhandler := h.handler_ne_none (by simp [hthread]) (by simp [hthread])
  refine h.set_thread hhandler (by simp) (by simp [hthread]) (by simp) (by simp) (by simp)
    (by simp) ?_ ?_
  · simp only [hthread, ThreadPc.count]
    omega
  · intro hphase
    simpa [hthread] using h.sent hphase

/-- The handler thread returns from `excimer_timer_handle`. -/
theorem store (h : TimerOk phase t handler running entered) (hthread : t.thread = .storing)
    (number : Nat) :
    TimerOk phase { t with thread := .waiting } (some ⟨number, false⟩) running entered := by
  have hhandler := h.handler_ne_none (by simp [hthread]) (by simp [hthread])
  refine h.set_thread hhandler (by simp) (by simp [hthread]) (by simp) (by simp) (by simp)
    (by simp) (by simp [hthread, ThreadPc.count]) ?_
  intro hphase
  simpa [hthread] using h.sent hphase

/-- The PHP thread enters the library, or goes on there without telling the
handler thread to exit. -/
theorem enter (h : TimerOk phase t handler running entered) (hphase : early phase = true)
    {pc : LibraryPc} (hpc : early (some pc) = true) (running' : Bool) :
    TimerOk (some pc) t handler running' entered := by
  refine ⟨h.absent, h.ended, h.storing, h.pending_range, h.thread_range,
    fun hhandler _ => h.alive hhandler hphase, ?_, ?_, ?_, ?_, by simp⟩
  · rintro (hkill | hjoin)
    · cases hkill
      cases hpc
    · cases hjoin
      cases hpc
  · intro hjoin
    cases hjoin
    cases hpc
  · intro hjoin
    cases hjoin
    cases hpc
  · intro hdelete
    cases hdelete
    cases hpc

theorem start (h : TimerOk none t handler running entered) (period : Timespec) (ok : Bool) :
    TimerOk none (t.start period ok).1 handler
      (if (t.start period ok).2 then true else running) entered := by
  unfold TimerlibTimer.start
  split
  · exact ⟨h.absent, h.ended, h.storing, h.pending_range, h.thread_range, h.alive, h.killed,
      h.sent, by simp, h.gone, by simp⟩
  · exact h

/-- `timerlib_timer_stop` is not called any more once `pthread_kill` has been. -/
theorem stop (h : TimerOk phase t handler running entered) (hphase : early phase = true)
    (ok : Bool) :
    TimerOk phase (t.stop ok).1 handler (if (t.stop ok).2 then false else running) entered := by
  unfold TimerlibTimer.stop
  split
  · refine ⟨h.absent, h.ended, h.storing, h.pending_range, h.thread_range, h.alive, h.killed,
      h.sent, ?_, h.gone, fun _ _ _ => rfl⟩
    rintro rfl
    cases hphase
  · exact h

end TimerOk

section Steps

variable {b next : State} {order : List TimerId}

theorem notify_inv (hcore : Timer.Inv b.core order) (h : Inv b) {timer : TimerId}
    (hstep : step b (.notify timer) = some next) : Inv next := by
  simp only [step] at hstep
  split at hstep
  case h_2 => cases hstep
  case h_1 overrun hthread =>
    obtain ⟨mid, hmid, rfl⟩ := Option.map_eq_some_iff.mp hstep
    obtain ⟨core, hown, rfl⟩ := Option.map_eq_some_iff.mp hmid
    obtain ⟨hlink, _, _, hstack, htrace, number, _, hhandlers⟩ := step_handle hcore hown
    refine h.change_one timer hstack rfl ?_ ?_
    · intro other hne
      refine ⟨Function.update_of_ne hne .., ?_, (hlink.timers other).2.1, ?_⟩
      · change core.handlers other = _
        rw [hhandlers, Function.update_of_ne hne]
      · change handled other core.trace = _
        rw [htrace]
        simp [handled, Ne.symm hne]
    · have hok := (h.timers timer).notify hthread number
      have hhandler : core.handlers timer = some ⟨number, true⟩ := by simp [hhandlers]
      have hhandled : handled timer core.trace =
          handled timer b.core.trace + (overrun + 1) := by
        rw [htrace]
        simp [handled]
      simp only [Layered.setTimer, Function.update_self, hhandler, hhandled,
        (hlink.timers timer).2.1]
      exact hok

theorem store_inv (h : Inv b) {timer : TimerId}
    (hstep : step b (.store timer) = some next) : Inv next := by
  obtain ⟨hthread, hstep⟩ := Option.ite_none_right_eq_some.mp hstep
  obtain ⟨mid, hmid, rfl⟩ := Option.map_eq_some_iff.mp hstep
  obtain ⟨core, hown, rfl⟩ := Option.map_eq_some_iff.mp hmid
  cases Timer.step_moves hown with
  | @store _ number =>
      refine h.change_one timer rfl rfl ?_ ?_
      · intro other hne
        exact ⟨Function.update_of_ne hne .., Function.update_of_ne hne .., rfl, rfl⟩
      · simpa [Layered.setTimer] using (h.timers timer).store hthread number

theorem Inv.aside (h : Inv b) {core : Timer.State} (haside : Aside b.core core) :
    Inv { b with core := core } := by
  have hnone := h.library_none haside.before
  refine h.outside hnone hnone haside.after ?_
  intro timer hok
  simp only [haside.handlers, haside.running, haside.handled]
  exact hok

theorem init_inv (hcore : Timer.Inv b.core order) (h : Inv b) {timer : TimerId} {ok : Bool}
    (hstep : step b (.php (.init timer ok)) = some next) : Inv next := by
  obtain ⟨mid, hmid, rfl⟩ := Option.map_eq_some_iff.mp hstep
  obtain ⟨core, hown, rfl⟩ := Option.map_eq_some_iff.mp hmid
  obtain ⟨⟨hphp, hinvalid⟩, heq⟩ := Option.ite_none_right_eq_some.mp hown
  have hhead := head_of_callbacks (hcore.user_stack hphp)
  have hnone := h.library_none hhead
  have hhandler := hcore.handler_none hinvalid
  cases heq
  refine h.outside hnone hnone ?_ ?_
  · cases ok <;> exact hhead
  · intro other hok
    by_cases heq : other = timer
    · subst heq
      cases ok <;>
        constructor <;>
          simp [Layered.setTimer, timerInit, Timer.State.setTimer, Timer.State.record, hhandler,
            handled, TimerlibTimer.upstream, ThreadPc.count]
    · cases ok <;>
        simpa [Layered.setTimer, timerInit, Timer.State.setTimer, Timer.State.record, handled, heq,
          Ne.symm heq] using hok

/-- The library has answered `timerlib_timer_start` or `timerlib_timer_stop`, and
`is_running` follows a success. -/
theorem Inv.answered (h : Inv b) {timer : TimerId} {t : TimerlibTimer} {ok running : Bool}
    {event : Event}
    (hsilent : ∀ other, handled other (event :: b.core.trace) = handled other b.core.trace)
    (hself : TimerOk (b.phase timer) t (b.core.handlers timer)
      (if ok then running else (b.core.timers timer).isRunning) (handled timer b.core.trace)) :
    Inv (Layered.setTimer
      { b with core := if ok then (b.core.setRunning timer running).record event else b.core }
      timer t) := by
  cases ok with
  | false =>
      refine h.change_one timer rfl rfl ?_ (by simpa [Layered.setTimer] using hself)
      intro other hne
      exact ⟨Function.update_of_ne hne .., rfl, rfl, rfl⟩
  | true =>
      refine h.change_one timer rfl rfl ?_ ?_
      · intro other hne
        refine ⟨Function.update_of_ne hne .., rfl, ?_, hsilent other⟩
        simp [Layered.setTimer, Timer.State.setRunning, Timer.State.setTimer, Timer.State.record,
          hne]
      · simpa [Layered.setTimer, Timer.State.setRunning, Timer.State.setTimer, Timer.State.record,
          hsilent timer] using hself

theorem start_inv (hcore : Timer.Inv b.core order) (h : Inv b) {timer : TimerId}
    {period initial : Timespec} {ok : Bool}
    (hstep : step b (.php (.start timer period initial ok)) = some next) : Inv next := by
  obtain ⟨mid, hmid, rfl⟩ := Option.map_eq_some_iff.mp hstep
  obtain ⟨rfl, -, hhead⟩ := Layered.call_outside hcore rfl hmid
  have hphase := h.phase_of_library_none (h.library_none hhead) timer
  unfold timerStart
  cases hvalid : (b.core.timers timer).isValid with
  | false =>
      exact h.aside ⟨rfl, fun _ => rfl, fun _ => rfl, hhead, hhead⟩
  | true =>
      cases hzero : (effectiveInitial period initial).isZero with
      | true => exact h.aside ⟨rfl, fun _ => rfl, fun _ => rfl, hhead, hhead⟩
      | false =>
          simp only [Bool.true_eq_false, Bool.false_eq_true, if_false, Bool.not_false,
            Bool.and_self, if_true]
          have hok := h.timers timer
          rw [hphase] at hok
          exact h.answered (fun _ => rfl) (hphase.symm ▸ hok.start period ok)

theorem stop_inv (hcore : Timer.Inv b.core order) (h : Inv b) {timer : TimerId} {ok : Bool}
    (hstep : step b (.php (.stop timer ok)) = some next) : Inv next := by
  obtain ⟨mid, hmid, rfl⟩ := Option.map_eq_some_iff.mp hstep
  obtain ⟨rfl, -, hhead⟩ := Layered.call_outside hcore rfl hmid
  unfold timerStop
  cases hvalid : (b.core.timers timer).isValid with
  | false => exact h.aside ⟨rfl, fun _ => rfl, fun _ => rfl, hhead, hhead⟩
  | true =>
      cases hrunning : (b.core.timers timer).isRunning with
      | false => exact h.aside ⟨rfl, fun _ => rfl, fun _ => rfl, hhead, hhead⟩
      | true =>
          simp only [Bool.true_eq_false, if_false, Bool.and_self, if_true]
          have hphase := h.phase_of_library_none (h.library_none hhead) timer
          exact h.answered (fun _ => rfl) ((h.timers timer).stop (hphase.symm ▸ rfl) ok)

/-- The PHP thread is in the library for one timer, and the others are left
alone. -/
theorem Inv.inside (timer : TimerId) {pc : LibraryPc}
    (hhead : (next.core.stack 0).head? = some (.destroy timer .timerlib))
    (hlibrary : next.library = some pc)
    (hothers : ∀ other, other ≠ timer → TimerOk none (next.timers other)
      (next.core.handlers other) (next.core.timers other).isRunning
      (handled other next.core.trace))
    (hself : TimerOk (some pc) (next.timers timer) (next.core.handlers timer)
      (next.core.timers timer).isRunning (handled timer next.core.trace)) : Inv next := by
  refine ⟨?_, ?_⟩
  · intro other
    by_cases heq : other = timer
    · subst heq
      simpa [State.phase, hhead, hlibrary] using hself
    · have hphase : next.phase other = none := by simp [State.phase, hhead, Ne.symm heq]
      rw [hphase]
      exact hothers other heq
  · simp [hlibrary, hhead]

theorem destroy_inv (hcore : Timer.Inv b.core order) (h : Inv b) {timer : TimerId}
    (hstep : step b (.php (.destroy timer)) = some next) : Inv next := by
  obtain ⟨mid, hmid, rfl⟩ := Option.map_eq_some_iff.mp hstep
  obtain ⟨rfl, -, hhead⟩ := Layered.call_outside hcore rfl hmid
  have hnone := h.library_none hhead
  have hphase := h.phase_of_library_none hnone
  unfold timerDestroy
  cases hvalid : (b.core.timers timer).isValid with
  | false =>
      have haside : Inv { b with core := b.core.record (.destroyed timer) } :=
        h.aside ⟨rfl, fun _ => rfl, fun _ => rfl, hhead, hhead⟩
      simp only [if_true]
      split
      · next other rest hstack =>
          have hdestroy : (b.core.stack 0).head? = some (.destroy other .timerlib) :=
            congrArg List.head? hstack
          exact absurd hdestroy (hhead other)
      · exact haside
  | true =>
      have htls : Build.nonZts.tls (.php 0) = .php 0 := rfl
      have hold (other : TimerId) := h.timers other
      simp only [hphase] at hold
      simp only [htls, (hcore.owner timer hvalid).1, ne_eq, not_true_eq_false, if_false,
        Bool.true_eq_false, Timer.State.setStack, Function.update_self]
      refine Inv.inside timer (by simp) rfl ?_ ?_
      · intro other hne
        simpa [Timer.State.setRunning, Timer.State.setTimer, hne] using hold other
      · apply (hold timer).enter rfl
        split <;> rfl

/-- The return of `timerlib_timer_destroy`: the handler thread has exited. -/
theorem delete_inv (h : Inv b) {timer : TimerId} {rest : List Frame} {ok : Bool} {mid : State}
    (hstack : b.core.stack 0 = .destroy timer .timerlib :: rest)
    (hexited : (b.timers timer).thread = .exited)
    (hmid : b.coreStep (.php 0 .destroyNext) = some mid) :
    Inv { mid.setTimer timer ((b.timers timer).delete ok) with library := none } := by
  obtain ⟨core, hown, rfl⟩ := Option.map_eq_some_iff.mp hmid
  have hown : Timer.phpStep .nonZts 0 b.core .destroyNext = some core := hown
  simp only [Timer.phpStep, hstack, destroyNext] at hown
  have hself := h.timers timer
  split at hown
  · cases hown
  · cases hown
    refine ⟨?_, ?_⟩
    · intro other
      rw [phase_of_not_destroying (by simp [Layered.setTimer, Timer.State.setStack])]
      by_cases heq : other = timer
      · subst heq
        constructor <;> simp [Layered.setTimer, Timer.State.setStack, hexited]
        exact hself.pending_range
      · have hphase : b.phase other = none := by simp [State.phase, hstack, Ne.symm heq]
        have hold := h.timers other
        rw [hphase] at hold
        simpa [Layered.setTimer, Timer.State.setStack, heq] using hold
    · simp [Layered.setTimer, Timer.State.setStack]

theorem library_inv (hcore : Timer.Inv b.core order) (h : Inv b) {ok : Bool}
    (hstep : step b (.library ok) = some next) : Inv next := by
  obtain ⟨pc, timer, own, rest, hlibrary, hstack, hmoves⟩ := step_library hstep
  obtain ⟨other, hother⟩ := h.library.mp (by simp [hlibrary])
  rw [hstack] at hother
  cases hother
  have hhead : (b.core.stack 0).head? = some (.destroy timer .timerlib) := by simp [hstack]
  have hself := h.timers timer
  have hphase (other : TimerId) (hne : other ≠ timer) : b.phase other = none := by
    simp [State.phase, hstack, Ne.symm hne]
  have hthis : b.phase timer = some pc := by simp [State.phase, hstack, hlibrary]
  rw [hthis] at hself
  have hkeep' (other : TimerId) (hne : other ≠ timer) :
      TimerOk none (b.timers other) (b.core.handlers other)
        (b.core.timers other).isRunning (handled other b.core.trace) := by
    rw [← hphase other hne]
    exact h.timers other
  have hkeep (other : TimerId) (hne : other ≠ timer) (t : TimerlibTimer) :
      TimerOk none ((b.setTimer timer t).timers other) (b.core.handlers other)
        (b.core.timers other).isRunning (handled other b.core.trace) := by
    simpa [Layered.setTimer, hne] using hkeep' other hne
  cases hmoves with
  | stop =>
      refine Inv.inside timer hhead rfl (fun other hne => hkeep other hne _) ?_
      simpa [Layered.setTimer] using (hself.stop rfl ok).enter rfl rfl _
  | gracefulExit =>
      refine Inv.inside timer hhead rfl (fun other hne => hkeep other hne _) ?_
      simp only [Layered.setTimer, Function.update_self]
      exact ⟨hself.absent, hself.ended, hself.storing, hself.pending_range, hself.thread_range,
        by simp [early], fun _ => rfl, by simp, by simp, by simp, by simp⟩
  | noThread hthread =>
      have hhandler : b.core.handlers timer ≠ none :=
        Option.isSome_iff_ne_none.mp (hcore.handler_isSome hhead)
      exact absurd ((hself.alive hhandler rfl).2.1.symm.trans hthread) (by simp)
  | kill =>
      have hkilled := hself.killed (Or.inl rfl)
      refine Inv.inside timer hhead rfl (fun other hne => hkeep other hne _) ?_
      simp only [Layered.setTimer, Function.update_self]
      refine ⟨hself.absent, hself.ended, hself.storing, ?_, hself.thread_range,
        by simp [early], fun _ => hkilled, by simp, fun _ => rfl, by simp, by simp⟩
      intro overrun hmem
      exact hself.pending_range overrun (by simpa using hmem)
  | queueFull _ hpending =>
      have hkilled := hself.killed (Or.inl rfl)
      refine Inv.inside timer hhead rfl (fun other hne => hkeep other hne _) ?_
      simp only [Layered.setTimer, Function.update_self]
      exact ⟨hself.absent, hself.ended, hself.storing, hself.pending_range, hself.thread_range,
        by simp [early], fun _ => hkilled, fun _ => Or.inl hpending, fun _ => rfl, by simp,
        by simp⟩
  | join hexited =>
      refine Inv.inside timer hhead rfl (fun other hne => hkeep' other hne) ?_
      exact ⟨hself.absent, hself.ended, hself.storing, hself.pending_range, hself.thread_range,
        by simp [early], by simp, by simp, by simp, fun _ => hexited, by simp⟩
  | delete hmid => exact delete_inv h hstack (hself.gone rfl) hmid

theorem php_inv (hcore : Timer.Inv b.core order) (h : Inv b) (move : Move)
    (hstep : step b (.php move) = some next) : Inv next := by
  have hloop (hmove : move = .interrupt ∨ move = .dequeue ∨ move = .call ∨ move = .ret)
      (hown : b.coreStep (.php 0 move) = some next) : Inv next := by
    obtain ⟨core, hphp, rfl⟩ := Option.map_eq_some_iff.mp hown
    exact h.aside (loop_aside hcore hmove hphp)
  cases move with
  | init timer ok => exact init_inv hcore h hstep
  | start timer period initial ok => exact start_inv hcore h hstep
  | stop timer ok => exact stop_inv hcore h hstep
  | destroy timer => exact destroy_inv hcore h hstep
  | destroyNext =>
      obtain ⟨hnone, hown⟩ := Option.ite_none_right_eq_some.mp hstep
      obtain ⟨core, hphp, rfl⟩ := Option.map_eq_some_iff.mp hown
      refine h.aside (destroyNext_aside hcore ?_ hphp)
      intro timer hhead
      have hsome := h.library.mpr ⟨timer, hhead⟩
      simp [hnone] at hsome
  | interrupt => exact hloop (Or.inl rfl) hstep
  | dequeue => exact hloop (Or.inr (Or.inl rfl)) hstep
  | call => exact hloop (Or.inr (Or.inr (Or.inl rfl))) hstep
  | ret => exact hloop (Or.inr (Or.inr (Or.inr rfl))) hstep

theorem step_inv (hcore : Timer.Inv b.core order) (h : Inv b) (action : Action)
    (hstep : step b action = some next) : Inv next := by
  cases action with
  | expire timer report =>
      obtain ⟨t, hexpire, rfl⟩ := Option.map_eq_some_iff.mp hstep
      exact h.set_timer timer t ((h.timers timer).expire hexpire)
  | discard timer lost =>
      obtain ⟨t, hdiscard, rfl⟩ := Option.map_eq_some_iff.mp hstep
      exact h.set_timer timer t ((h.timers timer).discard hdiscard)
  | wake timer signal =>
      obtain ⟨t, hwake, rfl⟩ := Option.map_eq_some_iff.mp hstep
      exact h.set_timer timer t ((h.timers timer).wake hwake)
  | test timer =>
      obtain ⟨t, htest, rfl⟩ := Option.map_eq_some_iff.mp hstep
      exact h.set_timer timer t ((h.timers timer).test htest)
  | notify timer => exact notify_inv hcore h hstep
  | store timer => exact store_inv h hstep
  | raise =>
      cases hstep
      exact ⟨h.timers, h.library⟩
  | php move => exact php_inv hcore h move hstep
  | library ok => exact library_inv hcore h hstep

end Steps

theorem reachable_inv {b : State} (hreach : Reachable b) : Inv b := by
  refine Transition.Reachable.invariant_with (fun b => ∃ order, Timer.Inv b.core order) Inv
    (fun b hb => Timer.reachable_inv (core_reachable hb)) ?_ ?_ hreach
  · rintro _ rfl
    exact initial_inv
  · rintro b action next ⟨order, hcore⟩ h hstep
    exact step_inv hcore h action hstep

/-- A step of the handler thread of a timer. -/
def Action.ofHandler (timer : TimerId) : Action → Bool
  | .wake other _ | .test other | .notify other | .store other => other == timer
  | _ => false

section Progress

variable {b : State}

/-- After `sigwaitinfo` has returned the thread tests `killed` and goes on. -/
theorem test_enabled {t : TimerlibTimer} {signal : Signal} (hthread : t.thread = .woken signal) :
    ∃ tested, t.test = some tested := by
  unfold TimerlibTimer.test
  rw [hthread]
  cases t.killed with
  | true => exact ⟨_, rfl⟩
  | false =>
      cases signal with
      | timer overrun => exact ⟨_, rfl⟩
      | kill => exact ⟨_, rfl⟩

/-- The handler thread can only be stuck in `sigwaitinfo` without a signal. -/
theorem handler_enabled (hreach : Reachable b) {timer : TimerId} {rest : List Frame}
    (hstack : b.core.stack 0 = .destroy timer .timerlib :: rest)
    (hexited : (b.timers timer).thread ≠ .exited)
    (hsignal : (b.timers timer).thread = .waiting → (b.timers timer).pending ≠ []) :
    ∃ action next, action.ofHandler timer = true ∧ step b action = some next := by
  have hok := (reachable_inv hreach).timers timer
  have hcoreReach := core_reachable hreach
  obtain ⟨order, hcore⟩ := Timer.reachable_inv hcoreReach
  have hhead : (b.core.stack 0).head? = some (.destroy timer .timerlib) := by simp [hstack]
  have hvalid := hcore.destroying timer _ hhead
  have hfree : (b.core.tls (.php 0)).mutex = none := by
    rw [hcore.mutex, hstack]
    rfl
  obtain ⟨handler, hhandler⟩ := Option.isSome_iff_exists.mp (hcore.handler_isSome hhead)
  cases hthread : (b.timers timer).thread with
  | absent =>
      rw [hok.absent hthread] at hhandler
      cases hhandler
  | waiting =>
      obtain ⟨signal, hmem⟩ := List.exists_mem_of_ne_nil _ (hsignal hthread)
      obtain ⟨t, hwake⟩ : ∃ t, (b.timers timer).wake signal = some t :=
        ⟨_, if_pos ⟨hthread, hmem⟩⟩
      exact ⟨.wake timer signal, b.setTimer timer t, by simp [Action.ofHandler],
        by simp only [step, hwake, Option.map_some]⟩
  | woken signal =>
      obtain ⟨t, htest⟩ := test_enabled hthread
      exact ⟨.test timer, b.setTimer timer t, by simp [Action.ofHandler],
        by simp only [step, htest, Option.map_some]⟩
  | notifying overrun =>
      obtain ⟨number, storing⟩ := handler
      have hidle : storing = false := by
        cases storing with
        | false => rfl
        | true =>
            have hstoring := hok.storing.mpr ⟨number, hhandler⟩
            rw [hthread] at hstoring
            cases hstoring
      subst hidle
      obtain ⟨hlow, hhigh⟩ := hok.thread_range overrun (Or.inr hthread)
      obtain ⟨core, hown⟩ := handle_enabled hcoreReach hhandler hfree hlow hhigh
      have hmid := Layered.coreStep_of_step hown
      exact ⟨.notify timer, _, by simp [Action.ofHandler],
        by simp only [step, hthread, hmid, Option.map_some]; rfl⟩
  | storing =>
      obtain ⟨number, hstoring⟩ := hok.storing.mp hthread
      have hptr := (hcore.owner timer hvalid).2
      obtain ⟨core, hown⟩ : ∃ core, Timer.step .nonZts b.core (.store timer) = some core := by
        simp only [Timer.step, hstoring, hptr]
        exact ⟨_, rfl⟩
      have hmid := Layered.coreStep_of_step hown
      exact ⟨.store timer, _, by simp [Action.ofHandler],
        by simp only [step, hthread, if_true, hmid, Option.map_some]; rfl⟩
  | exited => exact absurd hthread hexited

end Progress

/-- The end of a timer is final and does not deadlock. While the PHP thread
waits in `pthread_join`, the handler thread has exited or can go on, and when it
deletes the kernel timer and leaves the library, the thread has exited. When
`excimer_timer_destroy` has returned, and until the timer is initialised again,
there is no handler thread, the timer is not pending, and neither
`excimer_timer_handle` nor the callback is called for it. -/
theorem destroy_final {b : State} (hreach : Reachable b) :
    (∀ timer rest, b.core.stack 0 = .destroy timer .timerlib :: rest →
      b.library = some .join → (b.timers timer).thread = .exited ∨
        ∃ action next, action.ofHandler timer = true ∧ step b action = some next) ∧
    (∀ timer rest, b.core.stack 0 = .destroy timer .timerlib :: rest →
      b.library = some .delete → (b.timers timer).thread = .exited) ∧
    ∀ timer newer older, b.core.trace = newer ++ .destroyed timer :: older →
      (∀ ok, .init timer ok ∉ newer) →
      ((b.timers timer).thread = .absent ∨ (b.timers timer).thread = .exited) ∧
        ¬ OnPendingList b.core (.php 0) timer ∧
        (∀ overrunCount, .handle timer overrunCount ∉ newer) ∧
        ∀ count, .callback timer count ∉ newer := by
  have hinv := reachable_inv hreach
  have hcoreReach := core_reachable hreach
  obtain ⟨order, hcore⟩ := Timer.reachable_inv hcoreReach
  have hrecorded := reachable_recorded hcoreReach
  refine ⟨?_, ?_, ?_⟩
  · intro timer rest hstack hlibrary
    have hphase : b.phase timer = some .join := by simp [State.phase, hstack, hlibrary]
    rcases (hinv.timers timer).sent hphase with hpending | ⟨signal, hwoken⟩ | hexited
    · by_cases hexited : (b.timers timer).thread = .exited
      · exact Or.inl hexited
      · exact Or.inr (handler_enabled hreach hstack hexited fun _ => hpending)
    · refine Or.inr (handler_enabled hreach hstack (by simp [hwoken]) ?_)
      intro hwaiting
      rw [hwoken] at hwaiting
      cases hwaiting
    · exact Or.inl hexited
  · intro timer rest hstack hlibrary
    exact (hinv.timers timer).gone (by simp [State.phase, hstack, hlibrary])
  · intro timer newer older htrace hinit
    have hinvalid : (b.core.timers timer).isValid = false := by
      rw [hrecorded.valid timer, htrace]
      exact initialised_after_destroyed hinit
    refine ⟨(hinv.timers timer).ended (hcore.handler_none hinvalid), ?_, ?_⟩
    · rw [hcore.onPendingList_iff]
      exact hcore.unlisted hinvalid
    · exact lawful_after_destroyed (htrace ▸ hrecorded.lawful) hinit

/-- A timer expires just before it is destroyed, so that the signal of
`pthread_kill` is dropped. -/
def expiresBeforeKill : List Action :=
  [.php (.init 5 true), .php (.start 5 ⟨0, 1000⟩ ⟨0, 0⟩ true), .expire 5 .queued,
    .php (.destroy 5), .library true, .library true, .library false]

/-- The handler thread finds `killed` set, and the PHP thread goes on. -/
def exitsAndIsRemoved : List Action :=
  [.wake 5 (.timer 0), .test 5, .library true, .library true, .php .destroyNext,
    .php .destroyNext, .php .destroyNext, .php .destroyNext, .php (.stop 5 true)]

theorem destroy_final_expiresBeforeKill :
    (∃ b, Transition.run step State.initial expiresBeforeKill = some b ∧
      ((b.timers 5).thread = .exited ∨
        ∃ action next, action.ofHandler 5 = true ∧ step b action = some next)) ∧
    ∃ b, Transition.run step State.initial (expiresBeforeKill ++ exitsAndIsRemoved) = some b ∧
      ((b.timers 5).thread = .absent ∨ (b.timers 5).thread = .exited) ∧
        ¬ OnPendingList b.core (.php 0) 5 := by
  refine ⟨?_, ?_⟩
  · obtain ⟨b, hrun, hcheck⟩ := Transition.run_check step State.initial expiresBeforeKill
      (fun b => b.core.stack 0 == [.destroy 5 .timerlib] && b.library == some .join) (by decide)
    have hreach : Reachable b := ⟨State.initial, _, rfl, hrun⟩
    simp only [Bool.and_eq_true, beq_iff_eq] at hcheck
    exact ⟨b, hrun, (destroy_final hreach).1 5 [] hcheck.1 hcheck.2⟩
  · obtain ⟨b, hrun, hcheck⟩ := Transition.run_check step State.initial
      (expiresBeforeKill ++ exitsAndIsRemoved)
      (fun b => b.core.trace == [.warning "Unable to start uninitialised timer", .destroyed 5,
        .start 5, .init 5 true]) (by decide)
    have hreach : Reachable b := ⟨State.initial, _, rfl, hrun⟩
    have htrace : b.core.trace = [.warning "Unable to start uninitialised timer"] ++
        .destroyed 5 :: [.start 5, .init 5 true] := beq_iff_eq.mp hcheck
    obtain ⟨hended, hunlisted, -⟩ := (destroy_final hreach).2.2 5 _ _ htrace (by simp)
    exact ⟨b, hrun, hended, hunlisted⟩

end Excimer.Timer.Posix
