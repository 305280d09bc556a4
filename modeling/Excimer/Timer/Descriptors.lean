import Excimer.Timer.Kqueue

/-!
The descriptors and handler threads of one timer over the kqueue library. Each
successful `kqueue()` opens a descriptor with a new number, and each successful
`pthread_create()` a thread with a new number, so that closing a number twice or
never is visible in the history. `close` and `pthread_join` succeed.
-/

namespace Excimer.Timer.Kqueue

/-- An `excimer_timer` with what its calls have opened, created and released. -/
structure Owner where
  isValid : Bool := false
  isRunning : Bool := false
  timer : TimerlibTimer := {}
  /-- The number of descriptors that have been opened. -/
  opened : Nat := 0
  /-- The descriptors that have been closed, oldest first. -/
  closed : List Nat := []
  /-- The number of handler threads that have been created. -/
  created : Nat := 0
  joined : List Nat := []
  deriving DecidableEq, Repr

/-- Which calls of a start succeed. -/
structure Outcomes where
  kqueue : Bool
  kevent : Bool
  pthreadCreate : Bool
  deriving DecidableEq, Repr

inductive Call where
  | init
  | start (period initial now : Timespec) (outcomes : Outcomes)
  | stop
  | destroy
  deriving DecidableEq, Repr

namespace Owner

/-- `excimer_timer_init`. The kqueue library always initialises. -/
def init (s : Owner) : Owner :=
  { s with isValid := true, isRunning := false, timer := {} }

/-- What the calls of `timerlib_timer_start` return. -/
def calls (s : Owner) (now : Timespec) (outcomes : Outcomes) : StartCalls where
  kqueue := if outcomes.kqueue then some s.opened else none
  now := now
  kevent := outcomes.kevent
  pthreadCreate := if outcomes.pthreadCreate then some s.created else none

/-- `excimer_timer_start` -/
def start (s : Owner) (period initial now : Timespec) (outcomes : Outcomes) : Owner :=
  if s.isValid = false then
    s
  else if (effectiveInitial period initial).isZero then
    s
  else
    let result := s.timer.start period (effectiveInitial period initial) (s.calls now outcomes)
    { s with
      timer := result.1
      isRunning := if result.2 then true else s.isRunning
      opened := if outcomes.kqueue then s.opened + 1 else s.opened
      created :=
        if outcomes.kqueue && outcomes.kevent && outcomes.pthreadCreate then s.created + 1
        else s.created }

/-- `timerlib_timer_stop` -/
def release (s : Owner) : Owner :=
  match s.timer.kq with
  | none => s
  | some kq =>
      { s with
        timer := s.timer.stop
        closed := s.closed ++ [kq]
        joined := s.joined ++ s.timer.handlerThread.toList }

/-- `excimer_timer_stop` -/
def stop (s : Owner) : Owner :=
  if s.isValid = false then s
  else if s.isRunning then { s.release with isRunning := false }
  else s

/-- `excimer_timer_destroy`, called by the thread of the timer. -/
def destroy (s : Owner) : Owner :=
  if s.isValid = false then s
  else if s.isRunning then { s.release with isRunning := false, isValid := false }
  else { s with isValid := false }

def step (s : Owner) : Call → Option Owner
  | .init => some s.init
  | .start period initial now outcomes => some (s.start period initial now outcomes)
  | .stop => some s.stop
  | .destroy => some s.destroy

/-- The descriptors that are open. -/
def openDescriptors (s : Owner) : List Nat :=
  (List.range s.opened).filter fun kq => kq ∉ s.closed

/-- The handler threads that nobody has joined. -/
def unjoined (s : Owner) : List Nat :=
  (List.range s.created).filter fun thread => thread ∉ s.joined

/-- A timer that runs owns one descriptor, and one that does not run owns
nothing. When it has been destroyed, each descriptor was closed once. -/
structure Balanced (s : Owner) : Prop where
  idle : s.isRunning = false → s.openDescriptors = [] ∧ s.unjoined = []
  running : s.isRunning = true → ∃ kq, s.openDescriptors = [kq]
  destroyed : s.isValid = false → ∀ kq < s.opened, s.closed.count kq = 1

/-- A start that gets a descriptor is made on a timer that does not run, and its
later calls succeed. A timer is not initialised while it runs. -/
def Tidy (s : Owner) : Call → Prop
  | .init => s.isRunning = false
  | .start period initial _ outcomes =>
      s.isValid = true → (effectiveInitial period initial).isZero = false →
        outcomes.kqueue = true →
        s.isRunning = false ∧ outcomes.kevent = true ∧ outcomes.pthreadCreate = true
  | .stop | .destroy => True

instance (s : Owner) (call : Call) : Decidable (Tidy s call) :=
  match call with
  | .init => inferInstanceAs (Decidable (_ = _))
  | .start _ _ _ _ => inferInstanceAs (Decidable (_ → _ → _ → _))
  | .stop => instDecidableTrue
  | .destroy => instDecidableTrue

/-- What a start can do. -/
inductive StartMoves (s : Owner) (period initial now : Timespec) (outcomes : Outcomes) :
    Owner → Prop
  | refused (hrefused : s.isValid = false ∨ (effectiveInitial period initial).isZero = true) :
      StartMoves s period initial now outcomes s
  | noDescriptor (hkqueue : outcomes.kqueue = false) :
      StartMoves s period initial now outcomes
        { s with timer := { s.timer with
            period := period, initial := effectiveInitial period initial } }
  | failed (hvalid : s.isValid = true) (harmed : (effectiveInitial period initial).isZero = false)
      (hkqueue : outcomes.kqueue = true)
      (hfailed : ¬(outcomes.kevent = true ∧ outcomes.pthreadCreate = true)) :
      StartMoves s period initial now outcomes
        { s with
          timer := { s.timer with
            period := period, initial := effectiveInitial period initial
            kq := some s.opened, lastFiredAt := now }
          opened := s.opened + 1 }
  | started (hvalid : s.isValid = true) (harmed : (effectiveInitial period initial).isZero = false)
      (hkqueue : outcomes.kqueue = true)
      (hcalls : outcomes.kevent = true ∧ outcomes.pthreadCreate = true) :
      StartMoves s period initial now outcomes
        { s with
          timer := ⟨some s.opened, period, effectiveInitial period initial, now, some s.created⟩
          isRunning := true
          opened := s.opened + 1
          created := s.created + 1 }

theorem start_moves {s next : Owner} {period initial now : Timespec} {outcomes : Outcomes}
    (hstart : s.start period initial now outcomes = next) :
    StartMoves s period initial now outcomes next := by
  subst hstart
  unfold start
  split
  next hinvalid => exact .refused (Or.inl hinvalid)
  next hvalid =>
    split
    next hzero => exact .refused (Or.inr hzero)
    next harmed =>
      rw [Bool.not_eq_false] at hvalid
      rw [Bool.not_eq_true] at harmed
      obtain ⟨kqueue, kevent, create⟩ := outcomes
      cases kqueue with
      | false => exact .noDescriptor rfl
      | true =>
          cases kevent with
          | false => exact .failed hvalid harmed rfl (by simp)
          | true =>
              cases create with
              | false => exact .failed hvalid harmed rfl (by simp)
              | true => exact .started hvalid harmed rfl ⟨rfl, rfl⟩

section Tidy

variable {s next : Owner} {call : Call}

/-- Everything has been released, in the order in which it was acquired. -/
structure Idle (s : Owner) : Prop where
  isRunning : s.isRunning = false
  closed : s.closed = List.range s.opened
  joined : s.joined = List.range s.created

/-- Everything but the last descriptor and the last thread has been released. -/
structure Busy (s : Owner) (kq thread : Nat) : Prop where
  isRunning : s.isRunning = true
  isValid : s.isValid = true
  timer : s.timer.kq = some kq ∧ s.timer.handlerThread = some thread
  opened : s.opened = kq + 1 ∧ s.closed = List.range kq
  created : s.created = thread + 1 ∧ s.joined = List.range thread

def Inv (s : Owner) : Prop := Idle s ∨ ∃ kq thread, Busy s kq thread

theorem Busy.release {kq thread : Nat} (hbusy : Busy s kq thread) :
    s.release.closed = List.range s.release.opened ∧
      s.release.joined = List.range s.release.created := by
  obtain ⟨-, -, ⟨hkq, hthread⟩, ⟨hopened, hclosed⟩, hcreated, hjoined⟩ := hbusy
  simp [Owner.release, hkq, hthread, hopened, hclosed, hcreated, hjoined, List.range_succ]

theorem start_inv {period initial now : Timespec} {outcomes : Outcomes} (hinv : Inv s)
    (htidy : Tidy s (.start period initial now outcomes))
    (hstart : s.start period initial now outcomes = next) : Inv next := by
  cases start_moves hstart with
  | refused _ => exact hinv
  | noDescriptor _ =>
      rcases hinv with hidle | ⟨kq, thread, hbusy⟩
      · exact Or.inl ⟨hidle.isRunning, hidle.closed, hidle.joined⟩
      · exact Or.inr ⟨kq, thread, hbusy.isRunning, hbusy.isValid, hbusy.timer, hbusy.opened,
          hbusy.created⟩
  | failed hvalid harmed hkqueue hfailed => exact absurd (htidy hvalid harmed hkqueue).2 hfailed
  | started hvalid harmed hkqueue _ =>
      have hstopped := (htidy hvalid harmed hkqueue).1
      rcases hinv with hidle | ⟨kq, thread, hbusy⟩
      · exact Or.inr ⟨s.opened, s.created, rfl, hvalid, ⟨rfl, rfl⟩, ⟨rfl, hidle.closed⟩,
          rfl, hidle.joined⟩
      · rw [hbusy.isRunning] at hstopped
        cases hstopped

theorem step_inv (hinv : Inv s) (htidy : Tidy s call) (hstep : step s call = some next) :
    Inv next := by
  cases call with
  | init =>
      obtain rfl := Option.some.inj hstep
      rcases hinv with hidle | ⟨kq, thread, hbusy⟩
      · exact Or.inl ⟨rfl, hidle.closed, hidle.joined⟩
      · have hrunning := hbusy.isRunning
        rw [htidy] at hrunning
        cases hrunning
  | start period initial now outcomes =>
      exact start_inv hinv htidy (Option.some.inj hstep)
  | stop =>
      obtain rfl := Option.some.inj hstep
      rcases hinv with hidle | ⟨kq, thread, hbusy⟩
      · have hsame : s.stop = s := by simp [stop, hidle.isRunning]
        rw [hsame]
        exact Or.inl hidle
      · unfold stop
        rw [if_neg (by simp [hbusy.isValid]), if_pos hbusy.isRunning]
        exact Or.inl ⟨rfl, hbusy.release.1, hbusy.release.2⟩
  | destroy =>
      obtain rfl := Option.some.inj hstep
      unfold destroy
      rcases hinv with hidle | ⟨kq, thread, hbusy⟩
      · split
        next => exact Or.inl hidle
        next =>
          rw [if_neg (by simp [hidle.isRunning])]
          exact Or.inl ⟨hidle.isRunning, hidle.closed, hidle.joined⟩
      · rw [if_neg (by simp [hbusy.isValid]), if_pos hbusy.isRunning]
        exact Or.inl ⟨rfl, hbusy.release.1, hbusy.release.2⟩

theorem filter_range_notMem (n : Nat) :
    (List.range n).filter (fun i => i ∉ List.range n) = [] := by
  rw [List.filter_eq_nil_iff]
  intro i hi
  simpa using hi

theorem Inv.balanced (hinv : Inv s) : Balanced s := by
  rcases hinv with ⟨hidle, hclosed, hjoined⟩ | ⟨kq, thread, hbusy⟩
  · refine ⟨fun _ => ?_, fun hrunning => ?_, fun _ kq hlt => ?_⟩
    · rw [openDescriptors, unjoined, hclosed, hjoined]
      exact ⟨filter_range_notMem _, filter_range_notMem _⟩
    · rw [hidle] at hrunning
      cases hrunning
    · rw [hclosed]
      exact List.count_eq_one_of_mem List.nodup_range (List.mem_range.mpr hlt)
  · refine ⟨fun hidle => ?_, fun _ => ⟨kq, ?_⟩, fun hinvalid => ?_⟩
    · rw [hbusy.isRunning] at hidle
      cases hidle
    · rw [openDescriptors, hbusy.opened.1, hbusy.opened.2, List.range_succ, List.filter_append,
        filter_range_notMem]
      simp
    · rw [hbusy.isValid] at hinvalid
      cases hinvalid

end Tidy

section Leaks

variable {s next : Owner} {call : Call}

/-- Only open descriptors are stored in `kq` while the timer runs. -/
structure Numbered (s : Owner) : Prop where
  closed_lt : ∀ kq ∈ s.closed, kq < s.opened
  kq_open : s.isRunning = true → ∃ kq, s.timer.kq = some kq ∧ kq < s.opened ∧ kq ∉ s.closed

/-- A descriptor is open that the timer has lost sight of. -/
structure Leaked (s : Owner) (lost : Nat) : Prop where
  lt : lost < s.opened
  notMem : lost ∉ s.closed
  unknown : s.isRunning = true → s.timer.kq ≠ some lost

def Spoiled (s : Owner) : Prop := Numbered s ∧ ∃ lost, Leaked s lost

theorem Inv.numbered (hinv : Inv s) : Numbered s := by
  rcases hinv with ⟨hidle, hclosed, -⟩ | ⟨kq, thread, hbusy⟩
  · refine ⟨fun kq hmem => ?_, fun hrunning => ?_⟩
    · rw [hclosed] at hmem
      exact List.mem_range.mp hmem
    · rw [hidle] at hrunning
      cases hrunning
  · obtain ⟨hopened, hclosed⟩ := hbusy.opened
    refine ⟨fun other hmem => ?_, fun _ => ⟨kq, hbusy.timer.1, by omega, ?_⟩⟩
    · rw [hclosed, List.mem_range] at hmem
      omega
    · rw [hclosed]
      simp

theorem start_numbered {period initial now : Timespec} {outcomes : Outcomes}
    (hnumbered : Numbered s) (hstart : s.start period initial now outcomes = next) :
    Numbered next := by
  have hfresh : s.opened ∉ s.closed := fun hmem => absurd (hnumbered.closed_lt _ hmem) (by omega)
  have hclosed : ∀ kq ∈ s.closed, kq < s.opened + 1 := fun kq hmem => by
    have := hnumbered.closed_lt kq hmem
    omega
  cases start_moves hstart with
  | refused _ => exact hnumbered
  | noDescriptor _ => exact ⟨hnumbered.closed_lt, hnumbered.kq_open⟩
  | failed _ _ _ _ => exact ⟨hclosed, fun _ => ⟨s.opened, rfl, by simp, hfresh⟩⟩
  | started _ _ _ _ => exact ⟨hclosed, fun _ => ⟨s.opened, rfl, by simp, hfresh⟩⟩

theorem Leaked.start {lost : Nat} {period initial now : Timespec} {outcomes : Outcomes}
    (hleaked : Leaked s lost) (hstart : s.start period initial now outcomes = next) :
    Leaked next lost := by
  have hlt := hleaked.lt
  have hfresh : some s.opened ≠ some lost := by
    intro heq
    have := Option.some.inj heq
    omega
  cases start_moves hstart with
  | refused _ => exact hleaked
  | noDescriptor _ => exact ⟨hlt, hleaked.notMem, hleaked.unknown⟩
  | failed _ _ _ _ => exact ⟨by simp only; omega, hleaked.notMem, fun _ => hfresh⟩
  | started _ _ _ _ => exact ⟨by simp only; omega, hleaked.notMem, fun _ => hfresh⟩

/-- `timerlib_timer_stop` closes the descriptor that the timer knows. -/
theorem release_closed (hnumbered : Numbered s) (hrunning : s.isRunning = true) :
    ∃ kq, s.timer.kq = some kq ∧ kq < s.opened ∧ s.release.closed = s.closed ++ [kq] ∧
      s.release.opened = s.opened := by
  obtain ⟨kq, hkq, hlt, -⟩ := hnumbered.kq_open hrunning
  refine ⟨kq, hkq, hlt, ?_, ?_⟩ <;> simp [release, hkq]

theorem Spoiled.released (hspoiled : Spoiled s) (hrunning : s.isRunning = true) (valid : Bool) :
    Spoiled { s.release with isRunning := false, isValid := valid } := by
  obtain ⟨hnumbered, lost, hlt, hopen, hunknown⟩ := hspoiled
  obtain ⟨kq, hkq, hkqlt, hclosed, hopened⟩ := release_closed hnumbered hrunning
  have hother : lost ≠ kq := by
    rintro rfl
    exact hunknown hrunning hkq
  refine ⟨⟨fun other hmem => ?_, by simp⟩, lost, ?_, ?_, by simp⟩
  · simp only [hclosed, List.mem_append, List.mem_singleton] at hmem
    simp only [hopened]
    rcases hmem with hmem | rfl
    · exact hnumbered.closed_lt other hmem
    · exact hkqlt
  · simp only [hopened]
    exact hlt
  · simp only [hclosed, List.mem_append, List.mem_singleton, not_or]
    exact ⟨hopen, hother⟩

theorem step_spoiled (hspoiled : Spoiled s) (hstep : step s call = some next) : Spoiled next := by
  obtain ⟨hnumbered, lost, hleaked⟩ := hspoiled
  cases call with
  | init =>
      obtain rfl := Option.some.inj hstep
      exact ⟨⟨hnumbered.closed_lt, by simp [init]⟩, lost, hleaked.lt, hleaked.notMem,
        by simp [init]⟩
  | start period initial now outcomes =>
      have hstart := Option.some.inj hstep
      exact ⟨start_numbered hnumbered hstart, lost, hleaked.start hstart⟩
  | stop =>
      obtain rfl := Option.some.inj hstep
      unfold stop
      split
      next => exact ⟨hnumbered, lost, hleaked⟩
      next =>
        split
        next hrunning =>
          exact Spoiled.released ⟨hnumbered, lost, hleaked⟩ hrunning s.release.isValid
        next => exact ⟨hnumbered, lost, hleaked⟩
  | destroy =>
      obtain rfl := Option.some.inj hstep
      unfold destroy
      split
      next => exact ⟨hnumbered, lost, hleaked⟩
      next =>
        split
        next hrunning => exact Spoiled.released ⟨hnumbered, lost, hleaked⟩ hrunning false
        next => exact ⟨⟨hnumbered.closed_lt, hnumbered.kq_open⟩, lost, hleaked.lt, hleaked.notMem,
          hleaked.unknown⟩

theorem untidy_spoiled (hinv : Inv s) (huntidy : ¬Tidy s call) (hstep : step s call = some next) :
    Spoiled next := by
  have hnumbered := hinv.numbered
  cases call with
  | init =>
      obtain rfl := Option.some.inj hstep
      have hrunning : s.isRunning = true := by simpa [Tidy] using huntidy
      obtain ⟨kq, -, hlt, hopen⟩ := hnumbered.kq_open hrunning
      exact ⟨⟨hnumbered.closed_lt, by simp [init]⟩, kq, hlt, hopen, by simp [init]⟩
  | start period initial now outcomes =>
      have hstart : s.start period initial now outcomes = next := Option.some.inj hstep
      refine ⟨start_numbered hnumbered hstart, ?_⟩
      simp only [Tidy, Classical.not_imp] at huntidy
      obtain ⟨hvalid, harmed, hkqueue, hbad⟩ := huntidy
      -- on a running timer the old descriptor is lost, otherwise the new one
      have hold (hrunning : s.isRunning = true) :
          ∃ kq, kq < s.opened + 1 ∧ kq ∉ s.closed ∧ some s.opened ≠ some kq := by
        obtain ⟨kq, -, hlt, hopen⟩ := hnumbered.kq_open hrunning
        refine ⟨kq, by omega, hopen, fun heq => ?_⟩
        have := Option.some.inj heq
        omega
      cases start_moves hstart with
      | refused hrefused => simp [hvalid, harmed] at hrefused
      | noDescriptor hnone => simp [hkqueue] at hnone
      | failed _ _ _ _ =>
          cases hrunning : s.isRunning with
          | false =>
              have hfresh : s.opened ∉ s.closed :=
                fun hmem => absurd (hnumbered.closed_lt _ hmem) (by omega)
              exact ⟨s.opened, by simp, hfresh, fun hrun => by cases hrun⟩
          | true =>
              obtain ⟨kq, hlt, hopen, hother⟩ := hold hrunning
              exact ⟨kq, hlt, hopen, fun _ => hother⟩
      | started _ _ _ hcalls =>
          have hrunning : s.isRunning = true := by
            rw [← Bool.not_eq_false]
            exact fun hidle => hbad ⟨hidle, hcalls⟩
          obtain ⟨kq, hlt, hopen, hother⟩ := hold hrunning
          exact ⟨kq, hlt, hopen, fun _ => hother⟩
  | stop | destroy => exact absurd trivial huntidy

theorem Spoiled.not_balanced (hspoiled : Spoiled s) : ¬Balanced s := by
  obtain ⟨hnumbered, lost, hlt, hopen, hunknown⟩ := hspoiled
  intro hbalanced
  have hmem : lost ∈ s.openDescriptors := by simp [openDescriptors, hlt, hopen]
  cases hrunning : s.isRunning with
  | false =>
      rw [(hbalanced.idle hrunning).1] at hmem
      cases hmem
  | true =>
      obtain ⟨kq, hkq, hkqlt, hkqopen⟩ := hnumbered.kq_open hrunning
      have hother : kq ∈ s.openDescriptors := by simp [openDescriptors, hkqlt, hkqopen]
      obtain ⟨only, honly⟩ := hbalanced.running hrunning
      rw [honly, List.mem_singleton] at hmem hother
      exact hunknown hrunning (by rw [hkq, hother, hmem])

end Leaks

/-- The descriptors of a timer are balanced exactly if every start that gets a
descriptor finds the timer stopped and has no later call that fails, and the
timer is not initialised while it runs. -/
theorem descriptors_balanced_iff {calls : List Call} {s : Owner}
    (hrun : Transition.run step {} calls = some s) :
    Balanced s ↔ Transition.Along step Tidy {} calls := by
  have hstart : Inv {} := Or.inl ⟨rfl, rfl, rfl⟩
  have hcases := Transition.Along.dichotomy Inv Spoiled (fun _ _ _ => step_inv)
    (fun _ _ _ => untidy_spoiled) (fun _ _ _ => step_spoiled) hstart hrun
  rcases hcases with ⟨htidy, hinv⟩ | ⟨huntidy, hspoiled⟩
  · exact ⟨fun _ => htidy, fun _ => hinv.balanced⟩
  · exact ⟨fun hbalanced => absurd hbalanced hspoiled.not_balanced,
      fun htidy => absurd htidy huntidy⟩

/-- Two starts with a stop between them, of which the first gets no descriptor. -/
def restarted : List Call :=
  [.init, .start ⟨1, 0⟩ ⟨0, 0⟩ ⟨10, 0⟩ ⟨false, true, true⟩,
   .start ⟨1, 0⟩ ⟨0, 0⟩ ⟨11, 0⟩ ⟨true, true, true⟩, .stop,
   .start ⟨1, 0⟩ ⟨0, 0⟩ ⟨12, 0⟩ ⟨true, true, true⟩, .destroy]

theorem descriptors_balanced_iff_restarted :
    ∃ s, Transition.run step {} restarted = some s ∧ s.closed = [0, 1] ∧ Balanced s := by
  obtain ⟨s, hrun, hclosed⟩ := Transition.run_check step {} restarted
    (fun s => decide (s.closed = [0, 1])) (by decide)
  exact ⟨s, hrun, of_decide_eq_true hclosed, (descriptors_balanced_iff hrun).mpr (by decide)⟩

/-- The configuring `kevent()` fails after `kqueue()` has succeeded. -/
def keventFails : List Call :=
  [.init, .start ⟨1, 0⟩ ⟨0, 0⟩ ⟨10, 0⟩ ⟨true, false, true⟩, .destroy]

theorem keventFails_leaks :
    ∃ s, Transition.run step {} keventFails = some s ∧ s.isRunning = false ∧ s.isValid = false ∧
      s.openDescriptors = [0] ∧ s.closed = [] ∧ ¬Balanced s := by
  obtain ⟨s, hrun, hcheck⟩ := Transition.run_check step {} keventFails
    (fun s => decide (s.isRunning = false ∧ s.isValid = false ∧ s.openDescriptors = [0] ∧
      s.closed = [])) (by decide)
  obtain ⟨hidle, hinvalid, hopen, hclosed⟩ := of_decide_eq_true hcheck
  refine ⟨s, hrun, hidle, hinvalid, hopen, hclosed, fun hbalanced => ?_⟩
  rw [(hbalanced.idle hidle).1] at hopen
  cases hopen

end Owner

end Excimer.Timer.Kqueue
