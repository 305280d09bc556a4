import Excimer.Lib.Fairness
import Excimer.Timer.Shutdown

/-!
`excimer_timer_destroy` returns. The PHP thread takes a bounded number of steps in
it and waits at one place only, in `pthread_join`. From there on the handler thread
takes at most four steps until it exits, whatever the kernel and the other handler
threads do meanwhile.
-/

namespace Excimer.Timer

def DestroyPc.rank : DestroyPc → Nat
  | .timerlib => 4
  | .lock => 3
  | .remove => 2
  | .unlock => 1
  | .finish => 0

namespace Posix

/-- A step of the PHP thread inside the code of the extension or of the library, as
opposed to one that PHP code asks for. -/
def Action.ofExtension : Action → Bool
  | .library _ | .php .destroyNext | .php .dequeue | .php .call => true
  | _ => false

/-- The steps until the handler thread has exited, once it has been told to. -/
def ThreadPc.rank : ThreadPc → Nat
  | .absent | .exited => 0
  | .woken _ => 1
  | .waiting => 2
  | .storing => 3
  | .notifying _ => 4

def LibraryPc.rank : LibraryPc → Nat
  | .stop => 5
  | .gracefulExit => 4
  | .kill => 3
  | .join => 2
  | .delete => 1

/-- The steps of the PHP thread until its innermost call has returned. -/
def State.phpRank (b : State) : Nat :=
  match b.core.stack 0 with
  | .destroy _ pc :: _ => pc.rank + (b.library.map LibraryPc.rank).getD 0
  | _ => 0

/-- The PHP thread's steps count for more than all of the handler thread's. -/
def State.destroyRank (timer : TimerId) (b : State) : Nat :=
  5 * b.phpRank + if b.library = some .join then (b.timers timer).thread.rank else 4

/-- The PHP thread waits for the handler thread of this timer. -/
def State.waits (timer : TimerId) (b : State) : Bool :=
  b.library == some .join && (b.timers timer).thread != .exited

/-- Inside `excimer_timer_destroy`, called with a certain stack. -/
def Destroying (timer : TimerId) (rest : List Frame) (b : State) : Prop :=
  Reachable b ∧ ∃ pc, b.core.stack 0 = .destroy timer pc :: rest

def Returned (timer : TimerId) (rest : List Frame) (b : State) : Prop :=
  b.core.stack 0 = rest ∧ (b.core.timers timer).isValid = false

section Steps

variable {b next : State} {timer : TimerId} {rest : List Frame}

theorem rank_le (thread : ThreadPc) : thread.rank ≤ 4 := by
  cases thread <;> simp [ThreadPc.rank]

theorem Destroying.library_none (h : Destroying timer rest b) {pc : DestroyPc}
    (hstack : b.core.stack 0 = .destroy timer pc :: rest) (hpc : pc ≠ .timerlib) :
    b.library = none := by
  have hlibrary := (reachable_inv h.1).library
  cases hcall : b.library with
  | none => rfl
  | some call =>
      obtain ⟨other, hhead⟩ := hlibrary.mp (by simp [hcall])
      rw [hstack] at hhead
      cases hhead
      exact absurd rfl hpc

theorem Destroying.in_library (h : Destroying timer rest b) {pc : LibraryPc}
    (hlibrary : b.library = some pc) :
    b.core.stack 0 = .destroy timer .timerlib :: rest ∧ b.phase timer = some pc := by
  obtain ⟨hreach, own, hstack⟩ := h
  obtain ⟨other, hhead⟩ := (reachable_inv hreach).library.mp (by simp [hlibrary])
  rw [hstack] at hhead
  cases hhead
  exact ⟨hstack, by simp [State.phase, hstack, hlibrary]⟩

theorem Destroying.handler_enabled (h : Destroying timer rest b) (hwaits : b.waits timer = true) :
    Transition.Enabled step (Action.ofHandler timer) b := by
  simp only [State.waits, Bool.and_eq_true, beq_iff_eq, bne_iff_ne] at hwaits
  obtain ⟨hjoin, hexited⟩ := hwaits
  obtain ⟨hstack, hphase⟩ := h.in_library hjoin
  have hsignal : (b.timers timer).thread = .waiting → (b.timers timer).pending ≠ [] := by
    intro hwaiting
    rcases ((reachable_inv h.1).timers timer).sent hphase with hpending | ⟨signal, hwoken⟩ | hgone
    · exact hpending
    · simp [hwaiting] at hwoken
    · simp [hwaiting] at hgone
  obtain ⟨action, next, hown, hstep⟩ := Posix.handler_enabled h.1 hstack hexited hsignal
  exact ⟨action, hown, by simp [hstep]⟩

theorem destroyNext_isSome {order : List TimerId} (hcore : Timer.Inv b.core order)
    {pc : DestroyPc} (hstack : b.core.stack 0 = .destroy timer pc :: rest)
    (hidle : pc = .timerlib → ∀ number, b.core.handlers timer ≠ some ⟨number, true⟩) :
    (b.coreStep (.php 0 .destroyNext)).isSome = true := by
  obtain ⟨core, hmove⟩ := destroyNext_enabled hcore hstack hidle
  have hown : Timer.step .nonZts b.core (.php 0 .destroyNext) = some core := hmove
  simp [Layered.coreStep, hown]

theorem Destroying.php_enabled (h : Destroying timer rest b) (hwaits : b.waits timer = false) :
    Transition.Enabled step Action.ofExtension b := by
  obtain ⟨order, hcore⟩ := Timer.reachable_inv (core_reachable h.1)
  have hok := (reachable_inv h.1).timers timer
  cases hlibrary : b.library with
  | none =>
      obtain ⟨hreach, pc, hstack⟩ := h
      have hpc : pc ≠ .timerlib := by
        rintro rfl
        have hsome := (reachable_inv hreach).library.mpr ⟨timer, by simp [hstack]⟩
        simp [hlibrary] at hsome
      refine ⟨.php .destroyNext, rfl, ?_⟩
      simpa [step, phpStep, hlibrary] using
        destroyNext_isSome hcore hstack fun heq => absurd heq hpc
  | some pc =>
      obtain ⟨hstack, hphase⟩ := h.in_library hlibrary
      refine ⟨.library true, rfl, ?_⟩
      cases pc with
      | stop => simp [step, hlibrary, hstack, libraryStep]
      | gracefulExit =>
          simp only [step, hlibrary, hstack, libraryStep]
          split <;> rfl
      | kill => simp [step, hlibrary, hstack, libraryStep]
      | join =>
          have hexited : (b.timers timer).thread = .exited := by
            simpa [State.waits, hlibrary] using hwaits
          simp [step, hlibrary, hstack, libraryStep, hexited]
      | delete =>
          have hidle (number : Nat) : b.core.handlers timer ≠ some ⟨number, true⟩ := by
            intro hhandler
            have hstoring := hok.storing.mpr ⟨number, hhandler⟩
            rw [hok.gone hphase] at hstoring
            cases hstoring
          simpa [step, hlibrary, hstack, libraryStep] using
            destroyNext_isSome hcore hstack fun _ => hidle

/-- A step on the way to the return: it lowers the rank, or it is not a step of the
thread that is waited for and leaves that thread the same. -/
def Approaches (timer : TimerId) (b : State) (action : Action) (next : State) : Prop :=
  next.destroyRank timer < b.destroyRank timer ∨
    next.destroyRank timer = b.destroyRank timer ∧ next.waits timer = b.waits timer ∧
      (if b.waits timer then Action.ofHandler timer else Action.ofExtension) action = false

/-- Only the PHP thread changes its stack and moves on in the library. -/
theorem other_keeps (hreach : Reachable b) {action : Action} (hphp : ∀ move, action ≠ .php move)
    (hlibrary : ∀ ok, action ≠ .library ok) (hstep : step b action = some next) :
    next.core.stack 0 = b.core.stack 0 ∧ next.library = b.library := by
  obtain ⟨order, hcore⟩ := Timer.reachable_inv (core_reachable hreach)
  cases action with
  | expire timer report =>
      obtain ⟨t, -, rfl⟩ := Option.map_eq_some_iff.mp hstep
      exact ⟨rfl, rfl⟩
  | discard timer lost =>
      obtain ⟨t, -, rfl⟩ := Option.map_eq_some_iff.mp hstep
      exact ⟨rfl, rfl⟩
  | wake timer signal =>
      obtain ⟨t, -, rfl⟩ := Option.map_eq_some_iff.mp hstep
      exact ⟨rfl, rfl⟩
  | test timer =>
      obtain ⟨t, -, rfl⟩ := Option.map_eq_some_iff.mp hstep
      exact ⟨rfl, rfl⟩
  | notify timer =>
      simp only [step] at hstep
      split at hstep
      case h_1 =>
        obtain ⟨mid, hmid, rfl⟩ := Option.map_eq_some_iff.mp hstep
        obtain ⟨core, hown, rfl⟩ := Option.map_eq_some_iff.mp hmid
        obtain ⟨-, -, -, hstack, -⟩ := step_handle hcore hown
        exact ⟨congrFun hstack 0, rfl⟩
      case h_2 => cases hstep
  | store timer =>
      obtain ⟨-, hstep⟩ := Option.ite_none_right_eq_some.mp hstep
      obtain ⟨mid, hmid, rfl⟩ := Option.map_eq_some_iff.mp hstep
      obtain ⟨core, hown, rfl⟩ := Option.map_eq_some_iff.mp hmid
      cases step_moves hown with
      | store => exact ⟨rfl, rfl⟩
  | raise =>
      cases hstep
      exact ⟨rfl, rfl⟩
  | php move => exact absurd rfl (hphp move)
  | library ok => exact absurd rfl (hlibrary ok)

/-- A step of another thread leaves the call as it is. -/
theorem Destroying.aside (h : Destroying timer rest b) {action : Action}
    (hphp : ∀ move, action ≠ .php move) (hcall : ∀ ok, action ≠ .library ok)
    (hstep : step b action = some next)
    (hthread : b.library = some .join →
      (next.timers timer).thread.rank < (b.timers timer).thread.rank ∨
        (next.timers timer).thread = (b.timers timer).thread ∧ action.ofHandler timer = false) :
    Destroying timer rest next ∧ Approaches timer b action next := by
  obtain ⟨hreach, pc, hinside⟩ := h
  obtain ⟨hstack, hlibrary⟩ := other_keeps hreach hphp hcall hstep
  have hextension : action.ofExtension = false := by
    cases action with
    | php move => exact absurd rfl (hphp move)
    | library ok => exact absurd rfl (hcall ok)
    | _ => rfl
  refine ⟨⟨hreach.step_from hstep, pc, hstack.trans hinside⟩, ?_⟩
  have hphpRank : next.phpRank = b.phpRank := by
    simp only [State.phpRank, hstack, hlibrary]
  by_cases hjoin : b.library = some .join
  · rcases hthread hjoin with hless | ⟨hsame, hother⟩
    · refine Or.inl ?_
      simp only [State.destroyRank, hphpRank, hlibrary, hjoin, if_true]
      omega
    · refine Or.inr ⟨?_, ?_, ?_⟩
      · simp only [State.destroyRank, hphpRank, hlibrary, hsame]
      · simp only [State.waits, hlibrary, hsame]
      · split
        · exact hother
        · exact hextension
  · have hearlier : (b.library == some .join) = false := by simpa using hjoin
    refine Or.inr ⟨?_, ?_, ?_⟩
    · simp only [State.destroyRank, hphpRank, hlibrary, hjoin, if_false]
    · simp only [State.waits, hlibrary, hearlier, Bool.false_and]
    · simpa [State.waits, hearlier] using hextension

theorem destroyRank_eq {pc : DestroyPc} (hstack : b.core.stack 0 = .destroy timer pc :: rest) :
    b.destroyRank timer = 5 * (pc.rank + (b.library.map LibraryPc.rank).getD 0) +
      if b.library = some .join then (b.timers timer).thread.rank else 4 := by
  simp only [State.destroyRank, State.phpRank, hstack]

/-- A step of the PHP thread that brings it closer to the return. -/
theorem Destroying.advance {pc after : DestroyPc} (h : Destroying timer rest b)
    (hstack : b.core.stack 0 = .destroy timer pc :: rest) {action : Action}
    (hstep : step b action = some next)
    (hinside : next.core.stack 0 = .destroy timer after :: rest)
    (hless : after.rank + (next.library.map LibraryPc.rank).getD 0 <
      pc.rank + (b.library.map LibraryPc.rank).getD 0) :
    Destroying timer rest next ∧ next.destroyRank timer < b.destroyRank timer := by
  refine ⟨⟨h.1.step_from hstep, after, hinside⟩, ?_⟩
  have hbefore := rank_le (b.timers timer).thread
  have hafter := rank_le (next.timers timer).thread
  rw [destroyRank_eq hstack, destroyRank_eq hinside]
  split <;> split <;> omega

theorem Destroying.library_step (h : Destroying timer rest b) {ok : Bool}
    (hstep : step b (.library ok) = some next) :
    Destroying timer rest next ∧ next.destroyRank timer < b.destroyRank timer := by
  obtain ⟨pc, other, own, below, hlibrary, hstack, hmoves⟩ := step_library hstep
  obtain ⟨hinside, -⟩ := h.in_library hlibrary
  rw [hstack] at hinside
  cases hinside
  cases hmoves with
  | delete hmid =>
      -- the return of the library is a step of `excimer_timer_destroy`
      obtain ⟨core, hown, rfl⟩ := Option.map_eq_some_iff.mp hmid
      have hcore : core.stack 0 = .destroy timer .lock :: rest := by
        cases phpStep_moves (step_php hown).2 with
        | join hinside =>
            rw [hstack] at hinside
            cases hinside
            simp [Timer.State.setStack]
        | lock hinside | remove hinside | unlock hinside | finish hinside =>
            rw [hstack] at hinside
            cases hinside
      exact h.advance hstack hstep hcore (by simp [hlibrary, LibraryPc.rank, DestroyPc.rank])
  | _ => exact h.advance hstack hstep hstack (by simp [hlibrary, LibraryPc.rank])

/-- The steps of `excimer_timer_destroy` after the library has returned. -/
theorem Destroying.destroyNext_step (h : Destroying timer rest b)
    (hstep : step b (.php .destroyNext) = some next) :
    Returned timer rest next ∨ Destroying timer rest next ∧
      next.destroyRank timer < b.destroyRank timer := by
  obtain ⟨-, pc, hstack⟩ := id h
  obtain ⟨hlibrary, hmid⟩ := Option.ite_none_right_eq_some.mp hstep
  obtain ⟨core, hown, rfl⟩ := Option.map_eq_some_iff.mp hmid
  have hadvance (after : DestroyPc) (hcore : core.stack 0 = .destroy timer after :: rest)
      (hless : after.rank < pc.rank) :=
    h.advance hstack hstep hcore (by simpa [hlibrary] using hless)
  cases phpStep_moves (step_php hown).2 with
  | join hinside =>
      rw [hstack] at hinside
      cases hinside
      exact Or.inr (hadvance .lock (by simp [Timer.State.setStack]) (by decide))
  | lock hinside =>
      rw [hstack] at hinside
      cases hinside
      exact Or.inr (hadvance .remove (by simp [Timer.State.setStack]) (by decide))
  | remove hinside =>
      rw [hstack] at hinside
      cases hinside
      exact Or.inr (hadvance .unlock (by simp [Timer.State.setStack]) (by decide))
  | unlock hinside =>
      rw [hstack] at hinside
      cases hinside
      exact Or.inr (hadvance .finish (by simp [Timer.State.setStack]) (by decide))
  | finish hinside =>
      rw [hstack] at hinside
      cases hinside
      refine Or.inl ⟨?_, ?_⟩
      · simp [Timer.State.setStack, Timer.State.record]
      · simp [Timer.State.setStack, Timer.State.setTimer, Timer.State.record]

/-- The PHP thread is not in PHP code, so it makes no other call. -/
theorem Destroying.not_php (h : Destroying timer rest b) {move : Move}
    (hmove : move ≠ .destroyNext) : step b (.php move) = none := by
  obtain ⟨-, pc, hstack⟩ := h
  have hphp : b.core.runsPhp 0 = false := by simp [Timer.State.runsPhp, hstack]
  cases move <;> simp [step, phpStep, Layered.coreStep, Timer.step,
    Timer.phpStep, hphp, hstack] at hmove ⊢

/-- A step that writes the record of one timer moves the thread of this one or
leaves it alone. -/
theorem thread_update {other : TimerId} {t : TimerlibTimer} {action : Action}
    (hother : other ≠ timer → action.ofHandler timer = false)
    (hself : other = timer → t.thread.rank < (b.timers timer).thread.rank ∨
      t.thread = (b.timers timer).thread ∧ action.ofHandler timer = false) :
    ((b.setTimer other t).timers timer).thread.rank < (b.timers timer).thread.rank ∨
      ((b.setTimer other t).timers timer).thread = (b.timers timer).thread ∧
        action.ofHandler timer = false := by
  change (Function.update b.timers other t timer).thread.rank < _ ∨
    (Function.update b.timers other t timer).thread = _ ∧ _
  by_cases heq : other = timer
  · subst heq
    rw [Function.update_self]
    exact hself rfl
  · rw [Function.update_of_ne (Ne.symm heq)]
    exact Or.inr ⟨rfl, hother heq⟩

/-- The handler thread of this timer finds `killed` set after its next wake-up. -/
theorem Destroying.thread_step (h : Destroying timer rest b) {action : Action}
    (hphp : ∀ move, action ≠ .php move) (hcall : ∀ ok, action ≠ .library ok)
    (hstep : step b action = some next) (hjoin : b.library = some .join) :
    (next.timers timer).thread.rank < (b.timers timer).thread.rank ∨
      (next.timers timer).thread = (b.timers timer).thread ∧ action.ofHandler timer = false := by
  cases action with
  | expire other report =>
      obtain ⟨t, hexpire, rfl⟩ := Option.map_eq_some_iff.mp hstep
      refine thread_update (fun _ => rfl) ?_
      rintro rfl
      unfold TimerlibTimer.expire at hexpire
      split at hexpire
      · cases hexpire
      · obtain ⟨pending, -, rfl⟩ := Option.map_eq_some_iff.mp hexpire
        exact Or.inr ⟨rfl, rfl⟩
  | discard other lost =>
      obtain ⟨t, hdiscard, rfl⟩ := Option.map_eq_some_iff.mp hstep
      refine thread_update (fun _ => rfl) ?_
      rintro rfl
      obtain ⟨-, heq⟩ := Option.ite_none_right_eq_some.mp hdiscard
      cases heq
      exact Or.inr ⟨rfl, rfl⟩
  | wake other signal =>
      obtain ⟨t, hwake, rfl⟩ := Option.map_eq_some_iff.mp hstep
      refine thread_update (by simp [Action.ofHandler]) ?_
      rintro rfl
      obtain ⟨⟨hthread, -⟩, heq⟩ := Option.ite_none_right_eq_some.mp hwake
      cases heq
      exact Or.inl (by simp [hthread, ThreadPc.rank])
  | test other =>
      obtain ⟨t, htest, rfl⟩ := Option.map_eq_some_iff.mp hstep
      refine thread_update (by simp [Action.ofHandler]) ?_
      rintro rfl
      have hkilled := ((reachable_inv h.1).timers other).killed (Or.inr (h.in_library hjoin).2)
      unfold TimerlibTimer.test at htest
      split at htest
      case h_1 signal hthread =>
        rw [if_pos hkilled] at htest
        cases htest
        exact Or.inl (by simp [hthread, ThreadPc.rank])
      case h_2 => cases htest
  | notify other =>
      simp only [step] at hstep
      split at hstep
      case h_1 overrun hthread =>
        obtain ⟨mid, hmid, rfl⟩ := Option.map_eq_some_iff.mp hstep
        obtain ⟨core, -, rfl⟩ := Option.map_eq_some_iff.mp hmid
        refine thread_update (by simp [Action.ofHandler]) ?_
        rintro rfl
        exact Or.inl (by simp [hthread, ThreadPc.rank])
      case h_2 => cases hstep
  | store other =>
      obtain ⟨hthread, hstep⟩ := Option.ite_none_right_eq_some.mp hstep
      obtain ⟨mid, hmid, rfl⟩ := Option.map_eq_some_iff.mp hstep
      obtain ⟨core, -, rfl⟩ := Option.map_eq_some_iff.mp hmid
      refine thread_update (by simp [Action.ofHandler]) ?_
      rintro rfl
      exact Or.inl (by simp [hthread, ThreadPc.rank])
  | raise =>
      cases hstep
      exact Or.inr ⟨rfl, rfl⟩
  | php move => exact absurd rfl (hphp move)
  | library ok => exact absurd rfl (hcall ok)

theorem Destroying.any_step (h : Destroying timer rest b) (action : Action)
    (hstep : step b action = some next) :
    Returned timer rest next ∨ Destroying timer rest next ∧ Approaches timer b action next := by
  cases action with
  | php move =>
      by_cases hmove : move = .destroyNext
      · subst hmove
        rcases h.destroyNext_step hstep with hreturned | ⟨hinside, hless⟩
        · exact Or.inl hreturned
        · exact Or.inr ⟨hinside, Or.inl hless⟩
      · rw [h.not_php hmove] at hstep
        cases hstep
  | library ok =>
      obtain ⟨hinside, hless⟩ := h.library_step hstep
      exact Or.inr ⟨hinside, Or.inl hless⟩
  | _ => exact Or.inr (h.aside (by simp) (by simp) hstep (h.thread_step (by simp) (by simp) hstep))

theorem Destroying.returns {behaviour : Transition.Behaviour step}
    (hphp : behaviour.WeaklyFair Action.ofExtension)
    (hhandler : behaviour.WeaklyFair (Action.ofHandler timer)) {n : ℕ}
    (h : Destroying timer rest (behaviour.state n)) :
    ∃ m, n ≤ m ∧ Returned timer rest (behaviour.state m) := by
  refine Transition.Behaviour.eventually_of_helpful (Destroying timer rest)
    (Returned timer rest) (State.destroyRank timer)
    (fun waits : Bool => if waits then Action.ofHandler timer else Action.ofExtension)
    (State.waits timer) ?_ ?_ ?_ h
  · intro waits
    cases waits with
    | true => exact hhandler
    | false => exact hphp
  · intro b h _
    cases hwaits : b.waits timer with
    | true => exact h.handler_enabled hwaits
    | false => exact h.php_enabled hwaits
  · intro b action next h _ hstep
    exact h.any_step action hstep

end Steps

/-- `excimer_timer_destroy` returns, with the timer invalid. It takes no more than
a scheduler that lets the PHP thread go on in the extension and lets the handler
thread of the timer go on. The kernel may report expiries and the other timers may
fire all the while. -/
theorem destroy_returns {behaviour : Transition.Behaviour step} {n : ℕ}
    (hreach : Reachable (behaviour.state n)) {timer : TimerId} {pc : DestroyPc}
    {rest : List Frame} (hstack : (behaviour.state n).core.stack 0 = .destroy timer pc :: rest)
    (hphp : behaviour.WeaklyFair Action.ofExtension)
    (hhandler : behaviour.WeaklyFair (Action.ofHandler timer)) :
    ∃ m, n ≤ m ∧ (behaviour.state m).core.stack 0 = rest ∧
      ((behaviour.state m).core.timers timer).isValid = false :=
  Destroying.returns hphp hhandler ⟨hreach, pc, hstack⟩

section Rest

variable {b : State}

theorem not_enabled_extension (hlibrary : b.library = none) (hstack : b.core.stack 0 = []) :
    ¬Transition.Enabled step Action.ofExtension b := by
  rintro ⟨action, hown, hsome⟩
  cases action with
  | library ok => simp [step, hlibrary] at hsome
  | php move =>
      cases move <;>
        simp [step, phpStep, Layered.coreStep, Timer.step, Timer.phpStep, hstack, hlibrary,
          Action.ofExtension] at hown hsome
  | _ => cases hown

theorem not_enabled_handler {timer : TimerId}
    (hthread : ((b.timers timer).thread = .absent ∨ (b.timers timer).thread = .exited) ∨
      (b.timers timer).thread = .waiting ∧ (b.timers timer).pending = []) :
    ¬Transition.Enabled step (Action.ofHandler timer) b := by
  rintro ⟨action, hown, hsome⟩
  cases action <;> simp only [Action.ofHandler, beq_iff_eq, Bool.false_eq_true] at hown <;>
    subst hown <;> rcases hthread with (habsent | hexited) | ⟨hwaiting, hpending⟩ <;>
    simp_all [step, TimerlibTimer.wake, TimerlibTimer.test]

end Rest

/-- The handler thread has an expiry in hand when the timer is destroyed, and the
kernel reports another one. -/
def destroyedInNotify : List Action :=
  [.php (.init 5 true), .php (.start 5 ⟨0, 1000⟩ ⟨0, 0⟩ true), .expire 5 .queued,
    .wake 5 (.timer 0), .test 5, .php (.destroy 5), .library false, .library true, .library true,
    .notify 5, .expire 5 .queued, .store 5, .wake 5 .kill, .test 5, .library true, .library true,
    .php .destroyNext, .php .destroyNext, .php .destroyNext, .php .destroyNext]

theorem destroy_returns_destroyedInNotify :
    ∃ behaviour : Transition.Behaviour step, behaviour.state 0 = State.initial ∧
      (behaviour.state 6).core.stack 0 = [.destroy 5 .timerlib] ∧
      ∃ m, 6 ≤ m ∧ (behaviour.state m).core.stack 0 = [] ∧
        ((behaviour.state m).core.timers 5).isValid = false := by
  obtain ⟨final, hrun, hcheck⟩ := Transition.run_check step State.initial destroyedInNotify
    (fun b => b.library == none && b.core.stack 0 == [] && (b.timers 5).thread == .exited)
    (by decide)
  simp only [Bool.and_eq_true, beq_iff_eq] at hcheck
  obtain ⟨⟨hlibrary, hend⟩, hthread⟩ := hcheck
  obtain ⟨mid, hmid, hcheck⟩ := Transition.run_check step State.initial (destroyedInNotify.take 6)
    (fun b => b.core.stack 0 == [.destroy 5 .timerlib]) (by decide)
  have hstate : (Transition.Behaviour.ofRun hrun).state 6 = mid := by
    simp [Transition.Behaviour.ofRun, hmid]
  have hstack := beq_iff_eq.mp hcheck
  refine ⟨.ofRun hrun, rfl, hstate ▸ hstack, ?_⟩
  exact destroy_returns (hstate ▸ ⟨State.initial, _, rfl, hmid⟩) (hstate ▸ hstack)
    (Transition.Behaviour.ofRun_weaklyFair hrun (not_enabled_extension hlibrary hend))
    (Transition.Behaviour.ofRun_weaklyFair hrun (not_enabled_handler (Or.inl (Or.inr hthread))))

end Posix

end Excimer.Timer
