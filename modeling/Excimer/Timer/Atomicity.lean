import Excimer.Timer.Statements
import Mathlib.Algebra.Group.Action.End
import Mathlib.Algebra.Group.Submonoid.MulAction

/-!
Sections that hold the mutex are atomic. At every moment the thread inside a
section can go on to its end without the help of other threads, and the state
that it would leave behind is a state of the system that performs whole sections
in one step.
-/

namespace Excimer.Timer

open CircularList Sections

namespace State

variable (s : State) (m n : Shared) (holder other : Option Thread)

@[simp] theorem shared_overlay : (s.overlay m holder).shared = m := by
  ext <;> simp [shared, overlay, links]

@[simp] theorem overlay_overlay :
    (s.overlay m holder).overlay n other = s.overlay n other := by
  simp [overlay]

@[simp] theorem overlay_mutex : ((s.overlay m holder).tls (.php 0)).mutex = holder := by
  simp [overlay]

@[simp] theorem overlay_shared : s.overlay s.shared holder = s.setMutex (.php 0) holder := by
  simp [overlay, shared, links, setMutex]

end State

section Equations

variable (timer : TimerId) (m : Shared)

/-- The statements compute what the model of the function computes in one step. -/
theorem exec_enqueueStatements :
    (enqueueStatements timer).exec m =
      (listEnqueue m.links timer).map fun links => ({ m with links := links }, ()) := by
  unfold listEnqueue
  simp only [enqueueStatements, Program.exec]
  split
  · simp only [Program.exec]
    cases hhead : m.links.head with
    | none => rfl
    | some head =>
        cases hprev : m.links.prev head <;>
          simp [Program.exec, Shared.setNext, Shared.setPrev, hhead, hprev]
  · rfl

theorem exec_unlinkStatements {ρ : Type} (result : ρ) :
    (unlinkStatements timer result).exec m =
      some ((m.setNext timer none).setPrev timer none, result) := rfl

theorem exec_dequeueHeadStatements {m : Shared} (hhead : m.links.head = some timer) :
    (dequeueHeadStatements timer).exec m =
      (listDequeue m.links).map fun result => ({ m with links := result.1 }, timer) := by
  simp only [dequeueHeadStatements, Program.exec, listDequeue, hhead]
  split
  · rfl
  · cases hnext : m.links.next timer with
    | none => simp [Program.exec, hnext]
    | some next =>
        cases hprev : m.links.prev timer <;>
          simp [Program.exec, Shared.setNext, Shared.setHead, Shared.setPrev,
            exec_unlinkStatements, hnext, hprev]

theorem exec_removeStatements :
    (removeStatements timer).exec m =
      (listRemove m.links timer).map fun links => ({ m with links := links }, ()) := by
  simp only [removeStatements, Program.exec, listRemove]
  cases hnext : m.links.next timer with
  | none => rfl
  | some next =>
      simp only [reduceCtorEq, if_false, Program.exec, Option.some.injEq, hnext]
      split
      · rfl
      case isFalse hne =>
        cases hprev : m.links.prev timer with
        | none => simp [Program.exec, Shared.setPrev, hnext, hprev]
        | some prev =>
            simp only [Program.exec, Shared.setPrev, Shared.setNext, hnext, hprev, Option.map_some,
              Option.bind_some, Links.setPrev_prev, Links.setPrev_next, ite_self]
            by_cases hhead : m.links.head = some timer
            · simp [hhead, Program.exec, exec_unlinkStatements, Shared.setHead, Shared.setNext,
                Shared.setPrev]
            · simp [hhead, exec_unlinkStatements, Shared.setNext, Shared.setPrev]

end Equations

section Changes

/-- A change of the shared memory that leaves given timers and the head alone. -/
structure Respects (touched : Set TimerId) (change : Shared → Shared) : Prop where
  head : ∀ m, (change m).links.head = m.links.head
  next : ∀ m, ∀ timer ∈ touched, (change m).links.next timer = m.links.next timer
  prev : ∀ m, ∀ timer ∈ touched, (change m).links.prev timer = m.links.prev timer
  count : ∀ m, ∀ timer ∈ touched, (change m).eventCount timer = m.eventCount timer
  setHead : ∀ m target, change (m.setHead target) = (change m).setHead target
  setNext : ∀ m, ∀ timer ∈ touched, ∀ target,
    change (m.setNext timer target) = (change m).setNext timer target
  setPrev : ∀ m, ∀ timer ∈ touched, ∀ target,
    change (m.setPrev timer target) = (change m).setPrev timer target
  setCount : ∀ m, ∀ timer ∈ touched, ∀ count,
    change (m.setCount timer count) = (change m).setCount timer count

def Changes (touched : Set TimerId) : Submonoid (Function.End Shared) where
  carrier := { change | Respects touched change }
  one_mem' := ⟨fun _ => rfl, fun _ _ _ => rfl, fun _ _ _ => rfl, fun _ _ _ => rfl,
    fun _ _ => rfl, fun _ _ _ _ => rfl, fun _ _ _ _ => rfl, fun _ _ _ _ => rfl⟩
  mul_mem' := by
    intro f g hf hg
    constructor
    · exact fun m => (hf.head (g m)).trans (hg.head m)
    · exact fun m timer hmem => (hf.next (g m) timer hmem).trans (hg.next m timer hmem)
    · exact fun m timer hmem => (hf.prev (g m) timer hmem).trans (hg.prev m timer hmem)
    · exact fun m timer hmem => (hf.count (g m) timer hmem).trans (hg.count m timer hmem)
    · intro m target
      exact (congrArg f (hg.setHead m target)).trans (hf.setHead (g m) target)
    · intro m timer hmem target
      exact (congrArg f (hg.setNext m timer hmem target)).trans (hf.setNext (g m) timer hmem target)
    · intro m timer hmem target
      exact (congrArg f (hg.setPrev m timer hmem target)).trans (hf.setPrev (g m) timer hmem target)
    · intro m timer hmem count
      exact (congrArg f (hg.setCount m timer hmem count)).trans (hf.setCount (g m) timer hmem count)

/-- The `memset` of `excimer_timer_init`, as far as the shared memory goes. -/
def Shared.clear (timer : TimerId) (m : Shared) : Shared :=
  ((m.setNext timer none).setPrev timer none).setCount timer 0

namespace Shared

variable (timer other : TimerId) (m : Shared)

@[simp] theorem clear_head : (clear timer m).links.head = m.links.head := rfl

@[simp] theorem clear_next :
    (clear timer m).links.next other = if other = timer then none else m.links.next other := by
  simp [clear]

@[simp] theorem clear_prev :
    (clear timer m).links.prev other = if other = timer then none else m.links.prev other := by
  simp [clear]

@[simp] theorem clear_eventCount :
    (clear timer m).eventCount other = if other = timer then 0 else m.eventCount other := by
  simp [clear, setCount, setPrev, setNext, Function.update_apply]

end Shared

variable {touched : Set TimerId} {timer : TimerId}

theorem clear_mem_changes (hout : timer ∉ touched) :
    (Shared.clear timer : Function.End Shared) ∈ Changes touched := by
  have hne {other : TimerId} (hmem : other ∈ touched) : other ≠ timer := by
    rintro rfl
    exact hout hmem
  constructor
  · intro m
    rfl
  · intro m other hmem
    simp [hne hmem]
  · intro m other hmem
    simp [hne hmem]
  · intro m other hmem
    simp [hne hmem]
  · intro m target
    rfl
  · intro m other hmem target
    simp [Shared.clear, Shared.setNext, Shared.setPrev, Shared.setCount, Links.setNext,
      Links.setPrev, Function.update_comm (hne hmem)]
  · intro m other hmem target
    simp [Shared.clear, Shared.setNext, Shared.setPrev, Shared.setCount, Links.setNext,
      Links.setPrev, Function.update_comm (hne hmem)]
  · intro m other hmem count
    simp [Shared.clear, Shared.setNext, Shared.setPrev, Shared.setCount,
      Function.update_comm (hne hmem)]

variable (change : Changes touched) (m : Shared)

theorem smul_head : (change • m).links.head = m.links.head := change.2.head m

variable {m}

theorem smul_next (hmem : timer ∈ touched) :
    (change • m).links.next timer = m.links.next timer := change.2.next m timer hmem

theorem smul_prev (hmem : timer ∈ touched) :
    (change • m).links.prev timer = m.links.prev timer := change.2.prev m timer hmem

theorem smul_count (hmem : timer ∈ touched) :
    (change • m).eventCount timer = m.eventCount timer := change.2.count m timer hmem

theorem smul_setHead (target : Option TimerId) :
    change • m.setHead target = (change • m).setHead target := change.2.setHead m target

theorem smul_setNext (hmem : timer ∈ touched) (target : Option TimerId) :
    change • m.setNext timer target = (change • m).setNext timer target :=
  change.2.setNext m timer hmem target

theorem smul_setPrev (hmem : timer ∈ touched) (target : Option TimerId) :
    change • m.setPrev timer target = (change • m).setPrev timer target :=
  change.2.setPrev m timer hmem target

theorem smul_setCount (hmem : timer ∈ touched) (count : Int) :
    change • m.setCount timer count = (change • m).setCount timer count :=
  change.2.setCount m timer hmem count

/-- An enqueue touches the new timer and the two ends of the list. -/
theorem enqueueStatements_stable {order : List TimerId} (hring : m.links.Represents order)
    (hself : timer ∈ touched) (hlisted : ∀ other ∈ order, other ∈ touched) :
    (enqueueStatements timer).Stable (Changes touched) m := by
  refine ⟨fun change => by simp only [smul_next change hself], ?_⟩
  by_cases hnext : m.links.next timer = none
  swap
  · simp only [hnext, if_false]
    trivial
  simp only [hnext, if_true]
  refine ⟨fun change => by simp only [smul_head change], ?_⟩
  cases order with
  | nil =>
      have hhead : m.links.head = none := hring.head_eq
      simp only [hhead, if_true]
      refine ⟨fun change => by simp [smul_setHead], ?_⟩
      rintro _ ⟨rfl⟩
      refine ⟨fun change => by simp [smul_setNext change hself], ?_⟩
      rintro _ ⟨rfl⟩
      refine ⟨fun change => by simp [smul_setPrev change hself], ?_⟩
      rintro _ ⟨rfl⟩
      trivial
  | cons first rest =>
      have hhead : m.links.head = some first := hring.head_eq
      have hmem : timer ∉ first :: rest := (hring.next_eq_none_iff timer).mp hnext
      have hfirst : first ∈ touched := hlisted first (by simp)
      obtain ⟨last, hprev, hlast⟩ : ∃ last, m.links.prev first = some last ∧ last ∈ touched := by
        have hfront : m.links.Represents ([] ++ first :: rest) := hring
        have hends := hfront.neighbours.2.1
        rw [List.append_nil, List.getLast?_eq_getLast_of_ne_nil (List.cons_ne_nil _ _)] at hends
        exact ⟨_, hends, hlisted _ (List.getLast_mem _)⟩
      have hne : first ≠ timer := by
        rintro rfl
        exact hmem (by simp)
      simp only [hhead, reduceCtorEq, if_false]
      refine ⟨fun change => by simp [smul_head, smul_setNext change hself], ?_⟩
      rintro _ ⟨rfl⟩
      refine ⟨fun change => ?_, ?_⟩
      · simp [smul_head, smul_prev change hfirst, smul_setPrev change hself, hhead]
      intro changed hchanged
      obtain rfl : (m.setNext timer m.links.head).setPrev timer (some last) = changed := by
        simpa [hhead, hprev] using hchanged
      refine ⟨fun change => ?_, ?_⟩
      · simp [smul_head, smul_prev change hfirst, smul_setNext change hlast, hhead, hprev, hne]
      intro linked hlinked
      obtain rfl : ((m.setNext timer m.links.head).setPrev timer (some last)).setNext last
          (some timer) = linked := by
        simpa [hhead, hprev, hne] using hlinked
      refine ⟨fun change => ?_, fun _ _ => trivial⟩
      simp [smul_head, smul_setPrev change hfirst, hhead]

theorem handleStatements_stable {order : List TimerId} (hring : m.links.Represents order)
    (hself : timer ∈ touched) (hlisted : ∀ other ∈ order, other ∈ touched) (overrunCount : Int) :
    (handleStatements timer overrunCount).Stable (Changes touched) m := by
  refine ⟨fun change => ?_, ?_⟩
  · simp [smul_count change hself, smul_setCount change hself]
  · rintro _ ⟨rfl⟩
    exact enqueueStatements_stable hring hself hlisted

end Changes

section Environment

namespace State

variable (s : State) (m : Shared) (holder : Option Thread)

theorem overlay_setTimer (timer : TimerId) (value : ExcimerTimer) :
    (s.setTimer timer value).overlay m holder =
      (s.overlay m holder).setTimer timer { value with
        pendingNext := m.links.next timer
        pendingPrev := m.links.prev timer
        eventCount := m.eventCount timer } := by
  simp only [overlay, setTimer, State.mk.injEq, and_true]
  funext other
  by_cases heq : other = timer
  · subst heq
    simp
  · simp [heq]

theorem overlay_setRunning (timer : TimerId) (running : Bool) :
    (s.setRunning timer running).overlay m holder =
      (s.overlay m holder).setRunning timer running := by
  rw [setRunning, overlay_setTimer]
  rfl

end State

/-- A step that reads nothing of the shared memory and changes it in one way
whatever it contains. -/
def Independent (s next : State) (action : Action) (change : Shared → Shared) : Prop :=
  ∀ m holder, step .nonZts (s.overlay m holder) action = some (next.overlay (change m) holder)

variable {s next : State}

theorem timerStart_overlay (timer : TimerId) (period initial : Timespec) (ok : Bool) (m : Shared)
    (holder : Option Thread) :
    timerStart (s.overlay m holder) timer period initial ok =
      (timerStart s timer period initial ok).overlay m holder := by
  have hvalid : ((s.overlay m holder).timers timer).isValid = (s.timers timer).isValid := rfl
  unfold timerStart
  rw [hvalid]
  split
  · rfl
  · split
    · rfl
    · split
      · rw [← State.overlay_setRunning]
        rfl
      · rfl

theorem timerStop_overlay (timer : TimerId) (ok : Bool) (m : Shared) (holder : Option Thread) :
    timerStop (s.overlay m holder) timer ok = (timerStop s timer ok).overlay m holder := by
  have hvalid : ((s.overlay m holder).timers timer).isValid = (s.timers timer).isValid := rfl
  have hrunning : ((s.overlay m holder).timers timer).isRunning = (s.timers timer).isRunning := rfl
  unfold timerStop
  rw [hvalid, hrunning]
  split
  · rfl
  · split
    · split
      · rw [← State.overlay_setRunning]
        rfl
      · rfl
    · rfl

theorem timerDestroy_overlay (timer : TimerId) (m : Shared) (holder : Option Thread) :
    timerDestroy .nonZts 0 (s.overlay m holder) timer =
      (timerDestroy .nonZts 0 s timer).overlay m holder := by
  have hvalid : ((s.overlay m holder).timers timer).isValid = (s.timers timer).isValid := rfl
  have htls : ((s.overlay m holder).timers timer).tls = (s.timers timer).tls := rfl
  unfold timerDestroy
  rw [hvalid, htls]
  split
  · rfl
  · split
    · rfl
    · rw [← State.overlay_setRunning]
      rfl

theorem timerInit_overlay (timer : TimerId) (ok : Bool) (m : Shared) (holder : Option Thread) :
    timerInit .nonZts 0 (s.overlay m holder) timer ok =
      (timerInit .nonZts 0 s timer ok).overlay (Shared.clear timer m) holder := by
  cases ok with
  | true =>
      simp [timerInit, State.overlay, State.record, Build.nonZts]
      funext other
      by_cases heq : other = timer <;> simp [heq]
  | false =>
      simp [timerInit, State.overlay, State.record, State.setTimer]
      funext other
      by_cases heq : other = timer <;> simp [heq]

theorem Independent.memory {action : Action} {change : Shared → Shared}
    (hindependent : Independent s next action change)
    (hstep : step .nonZts s action = some next) :
    next.shared = change s.shared ∧ (next.tls (.php 0)).mutex = (s.tls (.php 0)).mutex := by
  have hself : s.overlay s.shared (s.tls (.php 0)).mutex = s := by simp [State.setMutex]
  have hsame := hindependent s.shared (s.tls (.php 0)).mutex
  rw [hself, hstep] at hsame
  rw [Option.some.inj hsame]
  exact ⟨State.shared_overlay .., State.overlay_mutex ..⟩

/-- The changes that other threads make to the shared memory. -/
def Harmless (s : State) (change : Shared → Shared) : Prop :=
  change = id ∨ ∃ timer, (s.timers timer).isValid = false ∧ change = Shared.clear timer

theorem php_independent (hlocked : (s.tls (.php 0)).mutex ≠ none)
    (hquiet : holder (s.stack 0) = none) {move : Move}
    (hstep : phpStep .nonZts 0 s move = some next) :
    ∃ change, Harmless s change ∧ Independent s next (.php 0 move) change := by
  have hphpStep (m : Shared) (holder : Option Thread) :
      step .nonZts (s.overlay m holder) (.php 0 move) =
        phpStep .nonZts 0 (s.overlay m holder) move := by
    simp [step, Build.nonZts]
  have hruns (m : Shared) (holder : Option Thread) :
      (s.overlay m holder).runsPhp 0 = s.runsPhp 0 := rfl
  have hvalid (m : Shared) (holder : Option Thread) (timer : TimerId) :
      ((s.overlay m holder).timers timer).isValid = (s.timers timer).isValid := rfl
  have hstacks (m : Shared) (holder : Option Thread) : (s.overlay m holder).stack = s.stack := rfl
  cases phpStep_moves hstep with
  | @init timer ok hphp hinvalid =>
      refine ⟨_, Or.inr ⟨timer, hinvalid, rfl⟩, fun m holder => ?_⟩
      simp only [hphpStep, phpStep, hruns, hvalid, hphp, hinvalid]
      exact congrArg some (timerInit_overlay timer ok m holder)
  | @start timer period initial ok hphp =>
      refine ⟨id, Or.inl rfl, fun m holder => ?_⟩
      simp only [hphpStep, phpStep, hruns, hphp]
      exact congrArg some (timerStart_overlay timer period initial ok m holder)
  | @stop timer ok hphp =>
      refine ⟨id, Or.inl rfl, fun m holder => ?_⟩
      simp only [hphpStep, phpStep, hruns, hphp]
      exact congrArg some (timerStop_overlay timer ok m holder)
  | @destroy timer hphp =>
      refine ⟨id, Or.inl rfl, fun m holder => ?_⟩
      simp only [hphpStep, phpStep, hruns, hphp]
      exact congrArg some (timerDestroy_overlay timer m holder)
  | @join timer rest hstack hidle =>
      refine ⟨id, Or.inl rfl, fun m holder => ?_⟩
      simp only [hphpStep, phpStep, hstacks, hstack, destroyNext]
      have hhandlers : (s.overlay m holder).handlers = s.handlers := rfl
      rw [hhandlers]
      split
      case h_1 number hbusy => exact absurd hbusy (hidle number)
      case h_2 => simp [State.overlay, State.setStack, Build.nonZts]
  | @lock timer rest hstack hfree => exact absurd hfree hlocked
  | @remove timer rest links hstack hremove =>
      rw [hstack] at hquiet
      cases hquiet
  | @unlock timer rest hstack =>
      rw [hstack] at hquiet
      cases hquiet
  | @finish timer rest hstack =>
      refine ⟨id, Or.inl rfl, fun m holder => ?_⟩
      simp only [hphpStep, phpStep, hstacks, hstack, destroyNext]
      have hover := s.overlay_setTimer m holder timer
        { s.timers timer with isValid := false, tls := none }
      exact congrArg (fun v => some ((v.setStack 0 rest).record (.destroyed timer))) hover.symm
  | interrupt hphp hraised =>
      refine ⟨id, Or.inl rfl, fun m holder => ?_⟩
      have hflag : (s.overlay m holder).vmInterrupt = s.vmInterrupt := rfl
      simp only [hphpStep, phpStep, hruns, hphp, hflag, hraised]
      rfl
  | @dequeue rest result hstack hdequeue =>
      obtain ⟨hfree, -⟩ := Option.ite_none_right_eq_some.mp hdequeue
      exact absurd hfree hlocked
  | @call timer count rest hstack =>
      refine ⟨id, Or.inl rfl, fun m holder => ?_⟩
      simp only [hphpStep, phpStep, hstacks, hstack]
      rfl
  | @ret timer rest hstack =>
      refine ⟨id, Or.inl rfl, fun m holder => ?_⟩
      simp only [hphpStep, phpStep, hstacks, hstack]
      rfl

/-- While somebody else holds the mutex, a thread can only take steps that do not
depend on the shared memory. -/
theorem step_independent (hlocked : (s.tls (.php 0)).mutex ≠ none)
    (hquiet : holder (s.stack 0) = none) {action : Action}
    (hstep : step .nonZts s action = some next) :
    ∃ change, Harmless s change ∧ Independent s next action change := by
  cases step_moves hstep with
  | @handle timer overrunCount number after hhandler hrange henqueue =>
      obtain ⟨hfree, -⟩ := Option.ite_none_right_eq_some.mp henqueue
      exact absurd hfree hlocked
  | @store timer number php hhandler hptr =>
      refine ⟨id, Or.inl rfl, fun m holder => ?_⟩
      have hhandler' : (s.overlay m holder).handlers timer = some ⟨number, true⟩ := hhandler
      have hptr' : ((s.overlay m holder).timers timer).vmInterruptPtr = some php := hptr
      simp only [step, hhandler', hptr']
      rfl
  | @raise php => exact ⟨id, Or.inl rfl, fun m holder => rfl⟩
  | @php number move _ hphp hmove =>
      obtain ⟨rfl, hmove⟩ := step_php hstep
      exact php_independent hlocked hquiet hmove

end Environment

namespace Detailed

/-- The state that a thread leaves behind when it goes on to the end of its
section. -/
def finish (s : State) (sec : Section) : Option State :=
  (sec.rest.exec s.shared).map fun result => leave (s.withShared result.1) result.2

/-- The section does not depend on what other threads may do to the timers that
are not on the list at its end. -/
def Shielded (s : State) (sec : Section) : Prop :=
  sec.handler.isSome → ∃ touched, sec.rest.Stable (Changes touched) s.shared ∧
    ∀ result, sec.rest.exec s.shared = some result →
      ∀ timer ∈ touched, (result.1.links.next timer).isSome

structure Underway (s : State) (sec : Section) (after : State) (bound : Nat) : Prop where
  finish_eq : finish s sec = some after
  reachable : Timer.Reachable .nonZts after
  locked : (s.tls (.php 0)).mutex ≠ none
  handled : sec.handler.isSome → ∀ result, sec.rest.exec s.shared = some result →
    result.2 = .handled
  shielded : Shielded s sec
  within : sec.rest.Within bound

variable {s after : State} {sec : Section} {bound : Nat} {t next : Detailed}

theorem withShared_shared (s : State) : s.withShared s.shared = s := by
  simp [State.withShared, State.setMutex]

@[simp] theorem withShared_mutex (s : State) (m : Shared) :
    ((s.withShared m).tls (.php 0)).mutex = (s.tls (.php 0)).mutex :=
  State.overlay_mutex ..

@[simp] theorem withShared_withShared (s : State) (m n : Shared) :
    (s.withShared m).withShared n = s.withShared n := by
  rw [State.withShared, withShared_mutex]
  exact State.overlay_overlay ..

@[simp] theorem shared_withShared (s : State) (m : Shared) : (s.withShared m).shared = m :=
  State.shared_overlay ..

theorem withShared_setMutex (s : State) (m : Shared) (holder : Option Thread) :
    (s.withShared m).setMutex (.php 0) holder = s.overlay m holder := by
  have hself := (s.withShared m).overlay_shared holder
  rw [shared_withShared] at hself
  exact hself.symm.trans (State.overlay_overlay ..)

theorem leave_handled (s : State) (m : Shared) :
    leave (s.withShared m) .handled = s.overlay m none := withShared_setMutex s m none

/-- A statement of the thread inside brings the section closer to its end, without
a change of where it ends. -/
theorem Underway.statement (h : Underway s sec after bound)
    (hstep : statement s sec = some next) :
    next = ⟨after, none⟩ ∨ ∃ later n, next.inside = some later ∧ bound = n + 1 ∧
      Underway next.memory later after n := by
  obtain ⟨handler, rest⟩ := sec
  have hfinish := h.finish_eq
  have hmove (q : Program Shared Outcome) (m : Shared) (hq : rest.step s.shared = some (q, m)) :
      ∃ n, bound = n + 1 ∧ Underway (s.withShared m) ⟨handler, q⟩ after n := by
    obtain ⟨n, hn, hwithin⟩ := h.within.step hq
    have hexec := Program.exec_step hq
    refine ⟨n, hn, ?_, h.reachable, ?_, ?_, ?_, hwithin⟩
    · simpa [finish, hexec] using hfinish
    · simpa using h.locked
    · simpa [hexec] using h.handled
    · intro hhandler
      obtain ⟨touched, hstable, hlisted⟩ := h.shielded hhandler
      refine ⟨touched, ?_, ?_⟩
      · rw [shared_withShared]
        exact hstable.step hq
      · simpa [hexec] using hlisted
  cases rest with
  | ret outcome =>
      cases hstep
      left
      simpa [finish, Program.exec, withShared_shared] using hfinish
  | read following =>
      cases hstep
      obtain ⟨n, hn, hlater⟩ := hmove _ _ rfl
      exact Or.inr ⟨_, n, rfl, hn, hlater⟩
  | write effect following =>
      obtain ⟨⟨q, m⟩, hq, rfl⟩ := Option.map_eq_some_iff.mp hstep
      obtain ⟨n, hn, hlater⟩ := hmove q m hq
      exact Or.inr ⟨_, n, rfl, hn, hlater⟩

/-- The thread inside a section is never stuck. -/
theorem Underway.progress (h : Underway s sec after bound) :
    ∃ next, Detailed.statement s sec = some next := by
  obtain ⟨result, hexec, -⟩ := Option.map_eq_some_iff.mp h.finish_eq
  obtain ⟨handler, rest⟩ := sec
  rcases Program.progress hexec with ⟨rfl, -⟩ | ⟨⟨q, m⟩, hq⟩
  · exact ⟨_, rfl⟩
  · cases rest with
    | ret outcome => cases hq
    | read following => exact ⟨_, rfl⟩
    | write effect following => exact ⟨_, congrArg (Option.map _) hq⟩

/-- A handler thread or another part of the engine stores a flag. -/
def flagged (s : State) (handlers : TimerId → Option Handler) (flag : Nat → Bool) : State :=
  { s with handlers := handlers, vmInterrupt := flag }

theorem leave_flagged (s : State) (handlers : TimerId → Option Handler) (flag : Nat → Bool)
    (outcome : Outcome) :
    leave (flagged s handlers flag) outcome = flagged (leave s outcome) handlers flag := by
  cases outcome with
  | dequeued result => cases result <;> rfl
  | _ => rfl

theorem Underway.flagged (h : Underway s sec after bound) (handlers : TimerId → Option Handler)
    (flag : Nat → Bool)
    (hreach : Timer.Reachable .nonZts (Detailed.flagged after handlers flag)) :
    Underway (Detailed.flagged s handlers flag) sec
      (Detailed.flagged after handlers flag) bound where
  finish_eq := by
    obtain ⟨result, hexec, rfl⟩ := Option.map_eq_some_iff.mp h.finish_eq
    rw [← leave_flagged]
    exact congrArg (Option.map _) hexec
  reachable := hreach
  locked := h.locked
  handled := h.handled
  shielded := h.shielded
  within := h.within

/-- What a handler thread or the engine can do while the PHP thread is inside. -/
theorem Underway.beside_php (h : Underway s sec after bound) (hnone : sec.handler = none)
    {action : Timer.Action} {other : State} (hpermits : permits ⟨s, some sec⟩ action = true)
    (hstep : Timer.step .nonZts s action = some other) :
    ∃ changed, Timer.step .nonZts after action = some changed ∧
      Underway other sec changed bound := by
  obtain ⟨result, -, hafter⟩ := Option.map_eq_some_iff.mp h.finish_eq
  have hsame : after.handlers = s.handlers ∧ after.vmInterrupt = s.vmInterrupt ∧
      ∀ timer, (after.timers timer).vmInterruptPtr = (s.timers timer).vmInterruptPtr := by
    rw [← hafter]
    cases result.2 with
    | dequeued found => cases found <;> exact ⟨rfl, rfl, fun _ => rfl⟩
    | _ => exact ⟨rfl, rfl, fun _ => rfl⟩
  obtain ⟨hhandlers, hflag, hptr⟩ := hsame
  cases step_moves hstep with
  | @handle timer overrunCount number following hhandler hrange henqueue => cases hpermits
  | @store timer number php hhandler hself =>
      have hchanged : Timer.step .nonZts after (.store timer) = some (Detailed.flagged after
          (Function.update s.handlers timer (some ⟨number, false⟩))
          (Function.update s.vmInterrupt php true)) := by
        simp only [Timer.step, hhandlers, hhandler, hptr, hself, hflag]
        rfl
      exact ⟨_, hchanged, h.flagged _ _ (h.reachable.step_from hchanged)⟩
  | @raise php =>
      have hchanged : Timer.step .nonZts after (.raise php) = some (Detailed.flagged after
          s.handlers (Function.update s.vmInterrupt php true)) := by
        simp only [Timer.step, hflag, ← hhandlers]
        rfl
      exact ⟨_, hchanged, h.flagged _ _ (h.reachable.step_from hchanged)⟩
  | @php number move _ hphp hmove => simp [permits, hnone] at hpermits

/-- What the PHP thread and other threads can do while a handler thread is inside.
The section of the handler can be taken to have happened before it. -/
theorem Underway.beside_handler (h : Underway s sec after bound) (hhandler : sec.handler.isSome)
    {action : Timer.Action} {other : State} (hstep : Timer.step .nonZts s action = some other) :
    ∃ changed, Timer.step .nonZts after action = some changed ∧
      Underway other sec changed bound := by
  obtain ⟨result, hexec, hafter⟩ := Option.map_eq_some_iff.mp h.finish_eq
  obtain ⟨touched, hstable, hlisted⟩ := h.shielded hhandler
  have hlinked := hlisted result hexec
  rw [h.handled hhandler result hexec, leave_handled] at hafter
  subst hafter
  obtain ⟨order, hinv⟩ := reachable_inv h.reachable
  have hquiet : holder (s.stack 0) = none := by
    have hmutex := hinv.mutex
    rw [State.overlay_mutex] at hmutex
    exact hmutex.symm
  obtain ⟨change, hharmless, hindependent⟩ := step_independent h.locked hquiet hstep
  obtain ⟨hshared, hmutex⟩ := hindependent.memory hstep
  have hmem : (change : Function.End Shared) ∈ Changes touched := by
    rcases hharmless with rfl | ⟨timer, hinvalid, rfl⟩
    · exact (Changes touched).one_mem
    · refine clear_mem_changes fun hmem => ?_
      have hout := hinv.unlisted hinvalid
      have hnone : result.1.links.next timer = none := by
        rw [← State.shared_overlay s result.1 none]
        exact hinv.ring.next_outside timer hout
      simpa [hnone] using hlinked timer hmem
  have hexec' : sec.rest.exec other.shared = some (change result.1, result.2) := by
    rw [hshared]
    exact (hstable.exec ⟨change, hmem⟩).trans (congrArg (Option.map _) hexec)
  have hchanged := hindependent result.1 none
  refine ⟨_, hchanged, ?_, h.reachable.step_from hchanged, ?_, ?_, ?_, h.within⟩
  · simp only [finish, hexec', Option.map_some, h.handled hhandler result hexec,
      leave_handled]
  · rw [hmutex]
    exact h.locked
  · intro _ result' hresult'
    rw [hexec'] at hresult'
    cases hresult'
    exact h.handled hhandler result hexec
  · intro _
    refine ⟨touched, ?_, ?_⟩
    · rw [hshared]
      exact hstable.smul ⟨change, hmem⟩
    · intro result' hresult' timer htouched
      rw [hexec'] at hresult'
      cases hresult'
      have hsame := smul_next ⟨change, hmem⟩ (m := result.1) htouched
      exact (congrArg Option.isSome hsame).trans (hlinked timer htouched)

/-- Steps of other threads stay possible when the section is taken to have
happened already. -/
theorem Underway.environment (h : Underway s sec after bound) {action : Timer.Action}
    {other : State} (hpermits : permits ⟨s, some sec⟩ action = true)
    (hstep : Timer.step .nonZts s action = some other) :
    ∃ changed, Timer.step .nonZts after action = some changed ∧
      Underway other sec changed bound := by
  cases hhandler : sec.handler with
  | none => exact h.beside_php hhandler hpermits hstep
  | some timer => exact h.beside_handler (by simp [hhandler]) hstep

section Entry

theorem handleStatements_within (timer : TimerId) (overrunCount : Int) :
    (handleStatements timer overrunCount).Within 10 := by
  intro m
  beta_reduce
  split
  · intro m
    beta_reduce
    split <;> trivial
  · trivial

theorem dequeueHeadStatements_within (timer : TimerId) :
    (dequeueHeadStatements timer).Within 7 := by
  intro m
  beta_reduce
  split
  · trivial
  · intro m
    trivial

theorem pendingDequeueStatements_within : pendingDequeueStatements.Within 10 := by
  intro m
  beta_reduce
  split
  · trivial
  · exact (dequeueHeadStatements_within _).andThen (n := 2) fun timer m => trivial

theorem removeStatements_within (timer : TimerId) : (removeStatements timer).Within 10 := by
  intro m
  beta_reduce
  split
  · trivial
  · intro m
    beta_reduce
    split
    · trivial
    · intro m
      beta_reduce
      split <;> trivial

@[simp] theorem shared_setMutex (s : State) (holder : Option Thread) :
    (s.setMutex (.php 0) holder).shared = s.shared := by
  rw [← s.overlay_shared holder, State.shared_overlay]

theorem withLinks_eq (s : State) (links : Links TimerId) :
    s.withLinks (.php 0) links = s.withShared { s.shared with links := links } := rfl

theorem setCount_eq (s : State) (timer : TimerId) (count : Int) :
    s.setTimer timer { s.timers timer with eventCount := count } =
      s.withShared (s.shared.setCount timer count) := by
  simp only [State.setTimer, State.withShared, State.overlay, State.shared, State.links,
    Shared.setCount, Function.update_eq_self, State.mk.injEq, and_true]
  funext other
  by_cases heq : other = timer
  · subst heq
    simp
  · simp [heq]

theorem handle_underway (hreach : Timer.Reachable .nonZts s) {timer : TimerId} {number : Nat}
    {overrunCount : Int} (hhandler : s.handlers timer = some ⟨number, false⟩)
    (hfree : (s.tls (.php 0)).mutex = none)
    (hrange : 0 ≤ overrunCount ∧ overrunCount + 1 ≤ intMax) :
    ∃ after, Timer.step .nonZts s (.handle timer overrunCount) = some after ∧
      Underway { s.setMutex (.php 0) (some (.handler number)) with
        handlers := Function.update s.handlers timer (some ⟨number, true⟩)
        trace := .handle timer overrunCount :: s.trace }
        ⟨some timer, (handleStatements timer overrunCount).andThen fun _ => .ret .handled⟩
        after 10 := by
  set locked : State := { s.setMutex (.php 0) (some (.handler number)) with
    handlers := Function.update s.handlers timer (some ⟨number, true⟩)
    trace := .handle timer overrunCount :: s.trace } with hlocked
  have hshared : locked.shared = s.shared := shared_setMutex s _
  obtain ⟨order, hinv⟩ := reachable_inv hreach
  obtain ⟨links, hlinks, hring⟩ := listEnqueue_spec hinv.ring timer
  set counted := s.shared.setCount timer (s.shared.eventCount timer + toInt (overrunCount + 1))
    with hcounted
  have hexec : (handleStatements timer overrunCount).exec s.shared =
      some ({ counted with links := links }, ()) := by
    have henqueue := exec_enqueueStatements timer counted
    rw [show listEnqueue counted.links timer = some links from hlinks] at henqueue
    exact henqueue
  have hstep : Timer.step .nonZts s (.handle timer overrunCount) =
      some (locked.overlay { counted with links := links } none) := by
    have htls : Build.nonZts.tls (.handler number) = .php 0 := rfl
    simp only [Timer.step, hhandler, if_pos hrange, handleEnqueue, htls, hfree, if_true]
    rw [links_setTimer (by rfl) (by rfl), hlinks, setCount_eq, Option.map_some, withLinks_eq,
      shared_withShared, withShared_withShared]
    simp only [Option.map_some, Option.some.injEq]
    simp [hlocked, State.withShared, State.overlay, State.setMutex, hfree]
    rfl
  have hwhole : ((handleStatements timer overrunCount).andThen fun _ => .ret Outcome.handled).exec
      locked.shared = some ({ counted with links := links }, .handled) := by
    rw [Program.exec_andThen, hshared, hexec]
    rfl
  refine ⟨_, hstep, ?_, hreach.step_from hstep, ?_, ?_, ?_, ?_⟩
  · simp only [finish, hwhole, Option.map_some, leave_handled]
  · simp [hlocked, State.setMutex]
  · intro _ result hresult
    rw [hwhole] at hresult
    cases hresult
    rfl
  · intro _
    refine ⟨{ other | other ∈ enqueued order timer }, ?_, ?_⟩
    · rw [hshared]
      refine (handleStatements_stable hinv.ring ?_ ?_ overrunCount).andThen fun _ _ => trivial
      · exact mem_enqueued.mpr (Or.inr rfl)
      · exact fun other hother => mem_enqueued.mpr (Or.inl hother)
    · intro result hresult other hother
      rw [hwhole] at hresult
      cases hresult
      exact (hring.next_isSome_iff other).mpr hother
  · exact ((handleStatements_within timer overrunCount).andThen (n := 0) fun _ => trivial)

/-- The statements of the dequeue against the model of the whole function. -/
theorem pendingDequeue_exec (hreach : Timer.Reachable .nonZts s)
    (hfree : (s.tls (.php 0)).mutex = none) :
    ∃ m result, pendingDequeueStatements.exec s.shared = some (m, result) ∧
      pendingDequeue .nonZts (.php 0) s = some (s.withShared m, result) := by
  obtain ⟨order, hinv⟩ := reachable_inv hreach
  have hhead : s.shared.links.head = order.head? := hinv.ring.head_eq
  cases order with
  | nil =>
      refine ⟨s.shared, none, ?_, ?_⟩
      · simp [pendingDequeueStatements, Program.exec, hhead]
      · rw [withShared_shared]
        exact pendingDequeue_nil hinv.ring hfree
  | cons first rest =>
      obtain ⟨links, hlinks, -⟩ := listDequeue_cons hinv.ring
      have hshared : listDequeue s.shared.links = some (links, some first) := hlinks
      refine ⟨{ s.shared with links := links }.setCount first 0,
        some (first, (s.timers first).eventCount), ?_, ?_⟩
      · simp only [pendingDequeueStatements, Program.exec, hhead, List.head?_cons,
          Program.exec_andThen, exec_dequeueHeadStatements first hhead, hshared]
        rfl
      · have htls : Build.nonZts.tls (.php 0) = .php 0 := rfl
        simp only [pendingDequeue, htls, hfree, if_true, hlinks, Option.map_some, withLinks_eq,
          setCount_eq, shared_withShared, withShared_withShared]
        rfl

theorem dequeue_underway (hreach : Timer.Reachable .nonZts s) {rest : List Frame}
    (hstack : s.stack 0 = .drain :: rest) (hfree : (s.tls (.php 0)).mutex = none) :
    ∃ after, Timer.step .nonZts s (.php 0 .dequeue) = some after ∧
      Underway (s.setMutex (.php 0) (some (.php 0)))
        ⟨none, pendingDequeueStatements.andThen fun result => .ret (.dequeued result)⟩
          after 10 := by
  set locked := s.setMutex (.php 0) (some (.php 0)) with hlocked
  have hshared : locked.shared = s.shared := shared_setMutex s _
  obtain ⟨m, result, hexec, hdequeue⟩ : ∃ m result,
      pendingDequeueStatements.exec s.shared = some (m, result) ∧
      pendingDequeue .nonZts (.php 0) s = some (s.withShared m, result) :=
    pendingDequeue_exec hreach hfree
  have hleft : (locked.withShared m).setMutex (.php 0) none = s.withShared m := by
    rw [withShared_setMutex, hlocked, ← s.overlay_shared, State.overlay_overlay, State.withShared,
      hfree]
  have hframes : ((locked.withShared m).stack 0).tail = rest := by
    change (s.stack 0).tail = rest
    rw [hstack, List.tail_cons]
  have hstep : Timer.step .nonZts s (.php 0 .dequeue) =
      some (leave (locked.withShared m) (.dequeued result)) := by
    have hphp : Timer.step .nonZts s (.php 0 .dequeue) = phpStep .nonZts 0 s .dequeue := by
      simp [Timer.step, Build.nonZts]
    rw [hphp]
    simp only [phpStep, hstack, hdequeue, Option.map_some]
    cases result with
    | none => simp only [leave, hleft, hframes]
    | some found => simp only [leave, hleft, hframes]
  refine ⟨_, hstep, ?_, hreach.step_from hstep, ?_, ?_, ?_, ?_⟩
  · rw [finish, Program.exec_andThen, hshared, hexec]
    rfl
  · simp [hlocked, State.setMutex]
  · exact fun hsome => absurd hsome (by simp)
  · exact fun hsome => absurd hsome (by simp)
  · exact pendingDequeueStatements_within.andThen (n := 0) fun _ => trivial

theorem remove_underway (hreach : Timer.Reachable .nonZts s) {timer : TimerId} {rest : List Frame}
    (hstack : s.stack 0 = .destroy timer .remove :: rest) :
    ∃ after, Timer.step .nonZts s (.php 0 .destroyNext) = some after ∧
      Underway s ⟨none, (removeStatements timer).andThen fun _ => .ret (.removed timer)⟩
        after 10 := by
  obtain ⟨order, hinv⟩ := reachable_inv hreach
  obtain ⟨links, hlinks, -⟩ := listRemove_spec hinv.ring timer
  have hstep : Timer.step .nonZts s (.php 0 .destroyNext) =
      some (leave (s.withShared { s.shared with links := links }) (.removed timer)) := by
    have hphp : Timer.step .nonZts s (.php 0 .destroyNext) = phpStep .nonZts 0 s .destroyNext := by
      simp [Timer.step, Build.nonZts]
    have htls : Build.nonZts.tls (.php 0) = .php 0 := rfl
    rw [hphp]
    simp only [phpStep, hstack, destroyNext, htls, hlinks, Option.map_some, withLinks_eq, leave]
    rw [show ((s.withShared _).stack 0) = s.stack 0 from rfl, hstack, List.tail_cons]
  refine ⟨_, hstep, ?_, hreach.step_from hstep, ?_, ?_, ?_, ?_⟩
  · rw [finish, Program.exec_andThen, exec_removeStatements,
      show listRemove s.shared.links timer = some links from hlinks]
    rfl
  · rw [hinv.mutex, hstack]
    simp [holder]
  · exact fun hsome => absurd hsome (by simp)
  · exact fun hsome => absurd hsome (by simp)
  · exact (removeStatements_within timer).andThen (n := 0) fun _ => trivial

end Entry

section Runs

/-- Either nobody is inside, or a section is under way. -/
def Inv (t : Detailed) : Prop :=
  match t.inside with
  | none => Timer.Reachable .nonZts t.memory
  | some sec => ∃ after bound, bound ≤ 10 ∧ Underway t.memory sec after bound

theorem Inv.outside (hinv : Inv t) (hfree : (t.memory.tls (.php 0)).mutex = none) :
    t.inside = none ∧ Timer.Reachable .nonZts t.memory := by
  obtain ⟨memory, inside⟩ := t
  cases inside with
  | none => exact ⟨rfl, hinv⟩
  | some sec =>
      obtain ⟨after, bound, -, hunderway⟩ := hinv
      exact absurd hfree hunderway.locked

theorem step_inv (hinv : Inv t) {action : Action} (hstep : step t action = some next) :
    Inv next := by
  obtain ⟨memory, inside⟩ := t
  cases action with
  | handle timer overrunCount =>
      simp only [step] at hstep
      split at hstep
      case h_1 number hhandler =>
        obtain ⟨⟨hfree, hrange⟩, heq⟩ := Option.ite_none_right_eq_some.mp hstep
        cases heq
        obtain ⟨after, -, hunderway⟩ := handle_underway (hinv.outside hfree).2 hhandler hfree hrange
        exact ⟨after, 10, le_rfl, hunderway⟩
      case h_2 => cases hstep
  | dequeue =>
      simp only [step] at hstep
      split at hstep
      case h_1 rest hstack =>
        obtain ⟨hfree, heq⟩ := Option.ite_none_right_eq_some.mp hstep
        cases heq
        obtain ⟨after, -, hunderway⟩ := dequeue_underway (hinv.outside hfree).2 hstack hfree
        exact ⟨after, 10, le_rfl, hunderway⟩
      case h_2 => cases hstep
  | remove =>
      simp only [step] at hstep
      split at hstep
      case h_1 timer rest hstack =>
        cases hstep
        obtain ⟨after, -, hunderway⟩ := remove_underway hinv hstack
        exact ⟨after, 10, le_rfl, hunderway⟩
      case h_2 => cases hstep
  | statement =>
      obtain ⟨sec, rfl, hstep⟩ := Option.bind_eq_some_iff.mp hstep
      obtain ⟨after, bound, hbound, hunderway⟩ := hinv
      rcases hunderway.statement hstep with rfl | ⟨later, n, hinside, hn, hlater⟩
      · exact hunderway.reachable
      · obtain ⟨memory', inside'⟩ := next
        obtain rfl : inside' = some later := hinside
        exact ⟨after, n, by omega, hlater⟩
  | other action =>
      obtain ⟨hpermits, hstep⟩ := Option.ite_none_right_eq_some.mp hstep
      obtain ⟨other, hother, rfl⟩ := Option.map_eq_some_iff.mp hstep
      cases inside with
      | none => exact Transition.Reachable.step_from hinv hother
      | some sec =>
          obtain ⟨after, bound, hbound, hunderway⟩ := hinv
          obtain ⟨changed, -, hchanged⟩ := hunderway.environment hpermits hother
          exact ⟨changed, bound, hbound, hchanged⟩

theorem reachable_detailed_inv (hreach : Reachable t) : Inv t := by
  refine Transition.Reachable.invariant Inv ?_ ?_ hreach
  · rintro _ rfl
    exact Transition.Reachable.start rfl
  · intro t action next hinv hstep
    exact step_inv hinv hstep

theorem Underway.completes (h : Underway s sec after bound) :
    ∃ count ≤ bound + 1, Transition.run step ⟨s, some sec⟩ (List.replicate count .statement) =
      some ⟨after, none⟩ := by
  induction bound generalizing s sec with
  | zero =>
      obtain ⟨next, hnext⟩ := h.progress
      rcases h.statement hnext with rfl | ⟨later, n, -, hn, -⟩
      · refine ⟨1, le_rfl, ?_⟩
        simp [Transition.run, step, hnext]
      · omega
  | succ bound ih =>
      obtain ⟨next, hnext⟩ := h.progress
      rcases h.statement hnext with rfl | ⟨later, n, hinside, hn, hlater⟩
      · refine ⟨1, by omega, ?_⟩
        simp [Transition.run, step, hnext]
      · obtain rfl : bound = n := by omega
        obtain ⟨memory, inside⟩ := next
        obtain rfl : inside = some later := hinside
        obtain ⟨count, hcount, hrun⟩ := ih hlater
        refine ⟨count + 1, by omega, ?_⟩
        rw [List.replicate_succ, Transition.run]
        simp only [step, Option.bind_some, hnext]
        exact hrun

theorem Underway.trace_eq (h : Underway s sec after bound) : after.trace = s.trace := by
  obtain ⟨result, -, rfl⟩ := Option.map_eq_some_iff.mp h.finish_eq
  cases result.2 with
  | dequeued found => cases found <;> rfl
  | _ => rfl

/-- A section that is entered can be completed. -/
theorem Underway.reachable_after (h : Underway s sec after bound)
    (hreach : Reachable ⟨s, some sec⟩) :
    Reachable ⟨after, none⟩ := by
  obtain ⟨count, -, hrun⟩ := h.completes
  exact hreach.run_from hrun

/-- Every step of the atomic system can be performed statement by statement. -/
theorem reachable_step {action : Timer.Action} (hreach : Timer.Reachable .nonZts s)
    (hdetailed : Reachable ⟨s, none⟩) (hstep : Timer.step .nonZts s action = some after) :
    Reachable ⟨after, none⟩ := by
  have hother (hpermits : permits ⟨s, none⟩ action = true) : Reachable ⟨after, none⟩ := by
    have hnext : step ⟨s, none⟩ (.other action) = some ⟨after, none⟩ := by
      simp [step, hpermits, hstep]
    exact hdetailed.step_from hnext
  cases step_moves hstep with
  | @handle timer overrunCount number linked hhandler hrange henqueue =>
      obtain ⟨hfree, -⟩ := Option.ite_none_right_eq_some.mp henqueue
      obtain ⟨_, hafter, hunderway⟩ := handle_underway hreach hhandler hfree hrange
      obtain rfl := Option.some.inj (hstep.symm.trans hafter)
      refine hunderway.reachable_after
        (hdetailed.step_from (?_ : step _ (.handle timer overrunCount) = _))
      simp only [step, hhandler]
      exact if_pos ⟨hfree, hrange⟩
  | store => exact hother rfl
  | raise => exact hother rfl
  | @php number move _ hphp hmove =>
      obtain ⟨rfl, hmove⟩ := step_php hstep
      cases phpStep_moves hmove with
      | @dequeue rest result hstack hdequeue =>
          obtain ⟨hfree, -⟩ := Option.ite_none_right_eq_some.mp hdequeue
          obtain ⟨_, hafter, hunderway⟩ := dequeue_underway hreach hstack hfree
          obtain rfl := Option.some.inj (hstep.symm.trans hafter)
          refine hunderway.reachable_after (hdetailed.step_from (?_ : step _ .dequeue = _))
          simp only [step, hstack]
          exact if_pos hfree
      | @remove timer rest links hstack hremove =>
          obtain ⟨_, hafter, hunderway⟩ := remove_underway hreach hstack
          obtain rfl := Option.some.inj (hstep.symm.trans hafter)
          refine hunderway.reachable_after (hdetailed.step_from (?_ : step _ .remove = _))
          simp only [step, hstack]
      | join hstack => exact hother (by simp [permits, hstack])
      | lock hstack => exact hother (by simp [permits, hstack])
      | unlock hstack => exact hother (by simp [permits, hstack])
      | finish hstack => exact hother (by simp [permits, hstack])
      | _ => exact hother (by simp [permits])

theorem reachable_detailed (hreach : Timer.Reachable .nonZts s) : Reachable ⟨s, none⟩ := by
  refine (Transition.Reachable.invariant (fun s => Timer.Reachable .nonZts s ∧ Reachable ⟨s, none⟩)
    ?_ ?_ hreach).2
  · rintro _ rfl
    exact ⟨Transition.Reachable.start rfl, Transition.Reachable.start rfl⟩
  · rintro s action next ⟨hs, hdetailed⟩ hstep
    exact ⟨hs.step_from hstep, reachable_step hs hdetailed hstep⟩

/-- Taking the mutex makes the sections atomic. Between any two statements of a
section, and whatever other threads have done so far, the thread inside needs at
most eleven steps of its own to leave, and then the state and the events are those
of the system that performs sections in one step. That system has no other
states. -/
theorem sections_atomic :
    (∀ t, Reachable t → ∃ after, Timer.Reachable .nonZts after ∧ after.trace = t.memory.trace ∧
      ∃ count ≤ 11, Transition.run step t (List.replicate count .statement) = some ⟨after, none⟩) ∧
    ∀ s, Timer.Reachable .nonZts s ↔ Reachable ⟨s, none⟩ := by
  refine ⟨?_, fun s => ⟨reachable_detailed, fun hreach => reachable_detailed_inv hreach⟩⟩
  rintro ⟨memory, inside⟩ hreach
  have hinv := reachable_detailed_inv hreach
  cases inside with
  | none => exact ⟨memory, hinv, rfl, 0, by omega, rfl⟩
  | some sec =>
      obtain ⟨after, bound, hbound, hunderway⟩ := hinv
      obtain ⟨count, hcount, hrun⟩ := hunderway.completes
      exact ⟨after, hunderway.reachable, hunderway.trace_eq, count, by omega, hrun⟩

/-- The PHP thread initialises a second timer while the handler thread of the first
one has set one of four pointers. -/
def duringEnqueue : List Action :=
  [.other (.php 0 (.init 1 true)), .handle 1 0, .statement, .statement, .statement, .statement,
   .other (.php 0 (.init 2 true))]

theorem sections_atomic_duringEnqueue :
    ∃ t, Transition.run step initial duringEnqueue = some t ∧ t.inside.isSome = true ∧
      t.memory.shared.links.head = some 1 ∧ (t.memory.timers 1).pendingNext = none ∧
      ∃ after, Timer.Reachable .nonZts after ∧
        ∃ count ≤ 11,
          Transition.run step t (List.replicate count .statement) = some ⟨after, none⟩ := by
  obtain ⟨t, hrun, hcheck⟩ := Transition.run_check step initial duringEnqueue
    (fun t => t.inside.isSome && (t.memory.shared.links.head == some 1) &&
      ((t.memory.timers 1).pendingNext == none)) (by decide)
  simp only [Bool.and_eq_true, beq_iff_eq] at hcheck
  obtain ⟨after, hafter, -, hcount⟩ := sections_atomic.1 t ⟨initial, duringEnqueue, rfl, hrun⟩
  exact ⟨t, hrun, hcheck.1.1, hcheck.1.2, hcheck.2, after, hafter, hcount⟩

end Runs

end Detailed

end Excimer.Timer
