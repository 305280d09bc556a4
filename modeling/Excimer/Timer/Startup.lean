import Excimer.Lib.Transition

/-!
The start-up handshake of the POSIX timer library. `timerlib_timer_init`
creates the handler thread and waits until that thread has stored its `tid`;
when it fails, `excimer_timer_init` calls `timerlib_timer_destroy`. A state holds
the fields of the `timerlib_timer_t` that the two threads share, the owner of
`ready_mutex`, the program counters of both threads, and how many threads and
kernel timers have been created and released.

`pthread_create`, `pthread_cond_wait`, `timer_create`, `pthread_kill` and
`timer_delete` may fail. `pthread_cond_wait` returns with the mutex held, also
when it reports an error, and it may return without a broadcast.
-/

namespace Excimer.Timer.Startup

inductive Owner where
  | php
  | handler
  deriving DecidableEq, Repr

/-- Where the PHP thread stands in `excimer_timer_init`. -/
inductive PhpPc where
  /-- Before `pthread_create`. -/
  | create
  | lock
  /-- At the head of the loop that waits for `ready`. -/
  | test
  /-- Inside `pthread_cond_wait`, without the mutex. -/
  | wait
  /-- Inside `pthread_cond_wait`, about to take the mutex again. -/
  | relock
  | unlock
  | timerCreate
  /-- At the start of `timerlib_timer_destroy`. -/
  | destroy
  | kill
  | join
  /-- Before the test of `timer_valid`. -/
  | delete
  | returned (success : Bool)
  deriving DecidableEq, Repr

/-- Where `timerlib_timer_thread_main` stands. -/
inductive HandlerPc where
  | absent
  /-- Before `timer->tid = gettid()`. -/
  | start
  | lock
  | setReady
  | broadcast
  | unlock
  /-- In `sigwaitinfo`. -/
  | wait
  /-- Before the test of `killed`. -/
  | test
  | exited
  | joined
  deriving DecidableEq, Repr

structure State where
  php : PhpPc := .create
  handler : HandlerPc := .absent
  /-- The owner of `ready_mutex`. -/
  mutex : Option Owner := none
  /-- `timer->tid` has been stored. -/
  tid : Bool := false
  ready : Bool := false
  killed : Bool := false
  threadValid : Bool := false
  timerValid : Bool := false
  /-- `TIMERLIB_SIGNAL` is pending for the handler thread. -/
  pending : Bool := false
  threadsCreated : Nat := 0
  threadsJoined : Nat := 0
  timersCreated : Nat := 0
  timersDeleted : Nat := 0
  deriving DecidableEq, Repr

inductive Action where
  /-- The next step of the PHP thread, with the outcome of the call it makes. -/
  | php (ok : Bool)
  | handler
  /-- `pthread_cond_wait` wakes up without a broadcast. -/
  | wakeup
  deriving DecidableEq, Repr

/-- `timerlib_timer_init`, followed by `timerlib_timer_destroy` if it fails. -/
def phpStep (s : State) (ok : Bool) : Option State :=
  match s.php with
  | .create =>
      if ok then
        some { s with
          php := .lock, handler := .start, threadValid := true
          threadsCreated := s.threadsCreated + 1 }
      else
        some { s with php := .destroy }
  | .lock => if s.mutex = none then some { s with php := .test, mutex := some .php } else none
  | .test =>
      if s.ready then some { s with php := .unlock }
      else if ok then some { s with php := .wait, mutex := none }
      -- the early return leaves the mutex locked
      else some { s with php := .destroy }
  | .wait => none
  | .relock =>
      if s.mutex = none then
        some { s with php := if ok then .test else .destroy, mutex := some .php }
      else
        none
  | .unlock => some { s with php := .timerCreate, mutex := none }
  | .timerCreate =>
      if ok then
        some { s with
          php := .returned true, timerValid := true, timersCreated := s.timersCreated + 1 }
      else
        some { s with php := .destroy }
  | .destroy =>
      if s.threadValid then some { s with php := .kill, threadValid := false, killed := true }
      else some { s with php := .delete }
  | .kill =>
      if ok then some { s with php := .join, pending := true } else some { s with php := .delete }
  | .join =>
      if s.handler = .exited then
        some { s with php := .delete, handler := .joined, threadsJoined := s.threadsJoined + 1 }
      else
        none
  | .delete =>
      if s.timerValid then
        some { s with
          php := .returned false, timerValid := false
          timersDeleted := if ok then s.timersDeleted + 1 else s.timersDeleted }
      else
        some { s with php := .returned false }
  | .returned _ => none

/-- `timerlib_timer_thread_main`. No kernel timer exists yet, so the only signal
is the one of `timerlib_graceful_exit`. -/
def handlerStep (s : State) : Option State :=
  match s.handler with
  | .absent => none
  | .start => some { s with handler := .lock, tid := true }
  | .lock =>
      if s.mutex = none then some { s with handler := .setReady, mutex := some .handler } else none
  | .setReady => some { s with handler := .broadcast, ready := true }
  | .broadcast =>
      some { s with handler := .unlock, php := if s.php = .wait then .relock else s.php }
  | .unlock => some { s with handler := .wait, mutex := none }
  | .wait => if s.pending then some { s with handler := .test, pending := false } else none
  | .test => some { s with handler := if s.killed then .exited else .wait }
  | .exited | .joined => none

def step (s : State) : Action → Option State
  | .php ok => phpStep s ok
  | .handler => handlerStep s
  | .wakeup => if s.php = .wait then some { s with php := .relock } else none

/-- While `pthread_join` waits, the handler thread can go on until it exits. -/
def NoDeadlock (s : State) : Prop :=
  s.php = .join → s.handler = .exited ∨ (step s .handler).isSome

/-- A failed initialisation has left nothing behind. -/
def CleanedUp (s : State) : Prop :=
  s.php = .returned false →
    (s.handler = .absent ∨ s.handler = .joined) ∧ s.threadsJoined = s.threadsCreated ∧
      s.timersDeleted = s.timersCreated

instance (s : State) : Decidable (NoDeadlock s) := inferInstanceAs (Decidable (_ → _))

instance (s : State) : Decidable (CleanedUp s) := inferInstanceAs (Decidable (_ → _))

/-- `pthread_cond_wait` reports no error while `ready` is clear, and
`pthread_kill` none at all. -/
def Undisturbed (s : State) : Action → Prop
  | .php false => (s.php = .test ∨ s.php = .relock → s.ready = true) ∧ s.php ≠ .kill
  | _ => True

instance (s : State) (action : Action) : Decidable (Undisturbed s action) :=
  match action with
  | .php false => inferInstanceAs (Decidable (_ ∧ _))
  | .php true => instDecidableTrue
  | .handler => instDecidableTrue
  | .wakeup => instDecidableTrue

/-- The PHP thread is in `timerlib_timer_destroy` or has returned from it. -/
def PhpPc.unwinding : PhpPc → Bool
  | .destroy | .kill | .join | .delete | .returned false => true
  | _ => false

namespace HandlerPc

/-- The handler thread owns the mutex. -/
def locked : HandlerPc → Bool
  | .setReady | .broadcast | .unlock => true
  | _ => false

/-- The handler thread has set `ready`. -/
def notified : HandlerPc → Bool
  | .absent | .start | .lock | .setReady => false
  | _ => true

/-- The handler thread runs and has not received a signal. -/
def early : HandlerPc → Bool
  | .start | .lock | .setReady | .broadcast | .unlock | .wait => true
  | _ => false

end HandlerPc

/-- A handler thread runs that nobody has signalled. -/
def Running (s : State) : Prop :=
  s.handler.early = true ∧ s.pending = false ∧ s.threadsCreated = 1 ∧ s.threadsJoined = 0

/-- No handler thread runs, and each one that was created has been joined. -/
def Gone (s : State) : Prop :=
  (s.handler = .absent ∨ s.handler = .joined) ∧ s.threadsJoined = s.threadsCreated

/-- What `pthread_join` waits for comes: the handler thread has exited, or it is
going to see `killed`, because the signal that was sent to it is not lost. -/
def Leaving (s : State) : Prop :=
  (s.handler.early = true ∧ s.pending = true ∨ s.handler = .test ∨ s.handler = .exited) ∧
    s.killed = true ∧ s.threadsCreated = 1 ∧ s.threadsJoined = 0

/-- The handler thread, by the program counter of the PHP thread. -/
def Phase (s : State) : Prop :=
  match s.php with
  | .create => s = {}
  | .lock | .test | .wait | .relock | .unlock | .timerCreate => Running s ∧ s.threadValid = true
  | .destroy => Running s ∧ s.threadValid = true ∨ Gone s ∧ s.threadValid = false
  | .kill => Running s ∧ s.killed = true
  | .join => Leaving s
  | .delete | .returned false => Gone s
  | .returned true => True

structure Inv (s : State) : Prop where
  /-- If the PHP thread owns the mutex outside the handshake, the handler thread
  does not need it any more. -/
  php_owner : s.mutex = some .php → s.php = .test ∨ s.php = .unlock ∨ s.ready = true
  php_holds : s.php = .test ∨ s.php = .unlock → s.mutex = some .php
  handler_owner : s.mutex = some .handler ↔ s.handler.locked = true
  ready_iff : s.ready = true ↔ s.handler.notified = true
  seen_ready : s.php = .unlock ∨ s.php = .timerCreate → s.ready = true
  no_timer : s.php ≠ .returned true →
    s.timerValid = false ∧ s.timersCreated = 0 ∧ s.timersDeleted = 0
  phase : Phase s

section Steps

variable {s next : State}

theorem initial_inv : Inv {} where
  php_owner := by simp
  php_holds := by simp
  handler_owner := by simp [HandlerPc.locked]
  ready_iff := by simp [HandlerPc.notified]
  seen_ready := by simp
  no_timer := by simp
  phase := rfl

theorem create_inv (ok : Bool) (hstep : phpStep {} ok = some next) : Inv next := by
  cases ok with
  | true =>
      obtain rfl := Option.some.inj hstep
      exact ⟨by simp, by simp, by simp [HandlerPc.locked], by simp [HandlerPc.notified], by simp,
        by simp, ⟨⟨rfl, rfl, rfl, rfl⟩, rfl⟩⟩
  | false =>
      obtain rfl := Option.some.inj hstep
      exact ⟨by simp, by simp, by simp [HandlerPc.locked], by simp [HandlerPc.notified], by simp,
        by simp, Or.inr ⟨⟨Or.inl rfl, rfl⟩, rfl⟩⟩

/-- Outside the loop, a mutex that the PHP thread owns is of no use to the
handler thread any more. -/
theorem Inv.ready_of_owner (hinv : Inv s) (htest : s.php ≠ .test) (hunlock : s.php ≠ .unlock)
    (hmutex : s.mutex = some .php) : s.ready = true :=
  ((hinv.php_owner hmutex).resolve_left htest).resolve_left hunlock

theorem Inv.not_locked (hinv : Inv s) (hmutex : s.mutex ≠ some .handler) :
    ¬s.handler.locked = true := by
  rw [← hinv.handler_owner]
  exact hmutex

/-- The PHP thread takes the mutex. -/
theorem Inv.take_mutex (hinv : Inv s) {pc : PhpPc} (hfree : s.mutex = none)
    (hpc : pc = .test ∨ pc = .destroy ∧ s.ready = true) (hphp : s.php ≠ .returned true)
    (hphase : Phase { s with php := pc, mutex := some .php }) :
    Inv { s with php := pc, mutex := some .php } := by
  have hout := hinv.not_locked (by simp [hfree])
  rcases hpc with rfl | ⟨rfl, hset⟩
  · exact ⟨by simp, by simp, by simp [hout], hinv.ready_iff, by simp,
      fun _ => hinv.no_timer hphp, hphase⟩
  · exact ⟨fun _ => Or.inr (Or.inr hset), by simp, by simp [hout], hinv.ready_iff, by simp,
      fun _ => hinv.no_timer hphp, hphase⟩

/-- The PHP thread gives the mutex back. -/
theorem Inv.give_mutex (hinv : Inv s) {pc : PhpPc} (hmutex : s.mutex = some .php)
    (hpc : pc = .wait ∨ pc = .timerCreate ∧ s.ready = true) (hphp : s.php ≠ .returned true)
    (hphase : Phase { s with php := pc, mutex := none }) :
    Inv { s with php := pc, mutex := none } := by
  have hout := hinv.not_locked (by simp [hmutex])
  rcases hpc with rfl | ⟨rfl, hset⟩
  · exact ⟨by simp, by simp, by simp [hout], hinv.ready_iff, by simp,
      fun _ => hinv.no_timer hphp, hphase⟩
  · exact ⟨by simp, by simp, by simp [hout], hinv.ready_iff, fun _ => hset,
      fun _ => hinv.no_timer hphp, hphase⟩

/-- The PHP thread goes on in `timerlib_timer_destroy`, and neither the mutex nor
the handler thread changes. -/
theorem Inv.unwind (hinv : Inv s) {pc : PhpPc} {valid killed pending : Bool}
    (howner : s.mutex = some .php → s.ready = true) (hpc : pc.unwinding = true)
    (hphp : s.php ≠ .returned true)
    (hphase : Phase
      { s with php := pc, threadValid := valid, killed := killed, pending := pending }) :
    Inv { s with php := pc, threadValid := valid, killed := killed, pending := pending } where
  php_owner hmutex := Or.inr (Or.inr (howner hmutex))
  php_holds := by
    rintro (rfl | rfl) <;> cases hpc
  handler_owner := hinv.handler_owner
  ready_iff := hinv.ready_iff
  seen_ready := by
    rintro (rfl | rfl) <;> cases hpc
  no_timer _ := hinv.no_timer hphp
  phase := hphase

/-- A step within `timerlib_timer_destroy`, other than the join. -/
theorem Inv.go_on (hinv : Inv s) {pc : PhpPc} {valid killed pending : Bool}
    (hold : s.php.unwinding = true) (hnew : pc.unwinding = true)
    (hphase : Phase
      { s with php := pc, threadValid := valid, killed := killed, pending := pending }) :
    Inv { s with php := pc, threadValid := valid, killed := killed, pending := pending } := by
  have hnot {other : PhpPc} (hother : other.unwinding = false) : s.php ≠ other := by
    rintro rfl
    simp [hother] at hold
  exact hinv.unwind (hinv.ready_of_owner (hnot rfl) (hnot rfl)) hnew (hnot rfl) hphase

/-- A handler thread that has exited has been through the whole handshake, so
joining it takes no promise back. -/
theorem join_inv (hinv : Inv s) (hphp : s.php = .join) (hexited : s.handler = .exited)
    (hleaving : Leaving s) :
    Inv { s with php := .delete, handler := .joined, threadsJoined := s.threadsJoined + 1 } := by
  obtain ⟨-, -, hcreated, hjoined⟩ := hleaving
  have hready := hinv.ready_iff.mpr (by rw [hexited]; rfl)
  have howner := hinv.handler_owner
  rw [hexited] at howner
  exact ⟨fun _ => Or.inr (Or.inr hready), by simp, howner, ⟨fun _ => rfl, fun _ => hready⟩, by simp,
    fun _ => hinv.no_timer (by simp [hphp]), Or.inr rfl,
    by simp [hcreated, hjoined]⟩

theorem phpStep_inv {ok : Bool} (hinv : Inv s) (hfine : Undisturbed s (.php ok))
    (hstep : phpStep s ok = some next) : Inv next := by
  have hphase := hinv.phase
  unfold Phase at hphase
  unfold phpStep at hstep
  cases hphp : s.php with
  | create =>
      simp only [hphp] at hphase
      subst hphase
      exact create_inv ok hstep
  | lock =>
      simp only [hphp, Option.ite_none_right_eq_some] at hphase hstep
      obtain ⟨hfree, hnext⟩ := hstep
      obtain rfl := Option.some.inj hnext
      exact hinv.take_mutex hfree (Or.inl rfl) (by simp [hphp]) hphase
  | test =>
      have hmutex := hinv.php_holds (Or.inl hphp)
      simp only [hphp] at hphase hstep
      split at hstep
      next hready =>
        obtain rfl := Option.some.inj hstep
        exact ⟨by simp, fun _ => hmutex, hinv.handler_owner, hinv.ready_iff, fun _ => hready,
          fun _ => hinv.no_timer (by simp [hphp]), hphase⟩
      next hclear =>
        -- the loop body: an error of `pthread_cond_wait` is excluded
        cases ok with
        | true =>
            obtain rfl := Option.some.inj hstep
            exact hinv.give_mutex hmutex (Or.inl rfl) (by simp [hphp]) hphase
        | false => exact absurd (hfine.1 (Or.inl hphp)) hclear
  | wait => simp [hphp] at hstep
  | relock =>
      simp only [hphp, Option.ite_none_right_eq_some] at hphase hstep
      obtain ⟨hfree, hnext⟩ := hstep
      obtain rfl := Option.some.inj hnext
      cases ok with
      | true => exact hinv.take_mutex hfree (Or.inl rfl) (by simp [hphp]) hphase
      | false =>
          exact hinv.take_mutex hfree (Or.inr ⟨rfl, hfine.1 (Or.inr hphp)⟩) (by simp [hphp])
            (Or.inl hphase)
  | unlock =>
      have hready := hinv.seen_ready (Or.inl hphp)
      simp only [hphp] at hphase hstep
      obtain rfl := Option.some.inj hstep
      exact hinv.give_mutex (hinv.php_holds (Or.inr hphp)) (Or.inr ⟨rfl, hready⟩) (by simp [hphp])
        hphase
  | timerCreate =>
      have hready := hinv.seen_ready (Or.inr hphp)
      simp only [hphp] at hphase hstep
      split at hstep <;> obtain rfl := Option.some.inj hstep
      · exact ⟨fun _ => Or.inr (Or.inr hready), by simp, hinv.handler_owner, hinv.ready_iff,
          by simp, by simp, trivial⟩
      · exact hinv.unwind (fun _ => hready) rfl (by simp [hphp]) (Or.inl hphase)
  | destroy =>
      simp only [hphp] at hphase hstep
      split at hstep <;> obtain rfl := Option.some.inj hstep
      next hvalid =>
        obtain ⟨hrunning, -⟩ := hphase.resolve_right (by simp [hvalid])
        exact hinv.go_on (by rw [hphp]; rfl) rfl ⟨hrunning, rfl⟩
      next hvalid =>
        obtain ⟨hgone, -⟩ := hphase.resolve_left (by simp [hvalid])
        exact hinv.go_on (by rw [hphp]; rfl) rfl hgone
  | kill =>
      simp only [hphp] at hphase hstep
      obtain ⟨⟨hearly, -, hcounts⟩, hkilled⟩ := hphase
      cases ok with
      | true =>
          obtain rfl := Option.some.inj hstep
          exact hinv.go_on (by rw [hphp]; rfl) rfl ⟨Or.inl ⟨hearly, rfl⟩, hkilled, hcounts⟩
      | false => exact absurd hphp hfine.2
  | join =>
      simp only [hphp, Option.ite_none_right_eq_some] at hphase hstep
      obtain ⟨hexited, hnext⟩ := hstep
      obtain rfl := Option.some.inj hnext
      exact join_inv hinv hphp hexited hphase
  | delete =>
      have hvalid := (hinv.no_timer (by simp [hphp])).1
      simp only [hphp] at hphase hstep
      rw [if_neg (by simp [hvalid])] at hstep
      obtain rfl := Option.some.inj hstep
      exact hinv.go_on (by rw [hphp]; rfl) rfl hphase
  | returned success => simp [hphp] at hstep

theorem Gone.not_early (hgone : Gone s) : ¬s.handler.early = true := by
  rcases hgone.1 with habsent | hjoined
  · simp [habsent, HandlerPc.early]
  · simp [hjoined, HandlerPc.early]

theorem Leaving.pending_of_early (hleaving : Leaving s) (hearly : s.handler.early = true) :
    s.pending = true := by
  rcases hleaving.1 with ⟨-, hpending⟩ | htest | hexited
  · exact hpending
  · simp [htest, HandlerPc.early] at hearly
  · simp [hexited, HandlerPc.early] at hearly

/-- The start-up of the handler thread is invisible to the phases. -/
theorem Phase.start_up (hphase : Phase s) {pc : HandlerPc} {mutex : Option Owner}
    {tid ready : Bool} (hold : s.handler.early = true) (hnew : pc.early = true) :
    Phase { s with handler := pc, mutex := mutex, tid := tid, ready := ready } := by
  unfold Phase at hphase ⊢
  cases hphp : s.php with
  | create =>
      simp only [hphp] at hphase
      subst hphase
      cases hold
  | lock | test | wait | relock | unlock | timerCreate =>
      simp only [hphp] at hphase
      exact ⟨⟨hnew, hphase.1.2⟩, hphase.2⟩
  | destroy =>
      simp only [hphp] at hphase
      rcases hphase with ⟨hrunning, hvalid⟩ | ⟨hgone, -⟩
      · exact Or.inl ⟨⟨hnew, hrunning.2⟩, hvalid⟩
      · exact absurd hold hgone.not_early
  | kill =>
      simp only [hphp] at hphase
      exact ⟨⟨hnew, hphase.1.2⟩, hphase.2⟩
  | join =>
      simp only [hphp] at hphase
      exact ⟨Or.inl ⟨hnew, hphase.pending_of_early hold⟩, hphase.2⟩
  | delete =>
      simp only [hphp] at hphase
      exact absurd hold hphase.not_early
  | returned success =>
      cases success with
      | true => trivial
      | false =>
          simp only [hphp] at hphase
          exact absurd hold hphase.not_early

/-- The broadcast, or a wakeup without one, ends the wait. -/
theorem Phase.wake (hphase : Phase s) (hphp : s.php = .wait) : Phase { s with php := .relock } := by
  simp only [Phase, hphp] at hphase
  exact hphase

theorem Running.not_signalled (hrunning : Running s)
    (hsignal : s.handler = .wait ∧ s.pending = true ∨ s.handler = .test) : False := by
  obtain ⟨hearly, hpending, -⟩ := hrunning
  rcases hsignal with ⟨-, hset⟩ | htest
  · simp [hpending] at hset
  · simp [htest, HandlerPc.early] at hearly

theorem Gone.not_signalled (hgone : Gone s)
    (hsignal : s.handler = .wait ∧ s.pending = true ∨ s.handler = .test) : False := by
  rcases hgone.1 with hnone | hnone <;> simp [hnone] at hsignal

/-- Before `timerlib_timer_init` has returned, a signal reaches the handler thread
only from `timerlib_graceful_exit`. -/
theorem Phase.signalled (hphase : Phase s)
    (hsignal : s.handler = .wait ∧ s.pending = true ∨ s.handler = .test) :
    s.php = .join ∧ Leaving s ∨ s.php = .returned true := by
  unfold Phase at hphase
  cases hphp : s.php with
  | create =>
      simp only [hphp] at hphase
      subst hphase
      simp at hsignal
  | lock | test | wait | relock | unlock | timerCreate | kill =>
      simp only [hphp] at hphase
      exact (hphase.1.not_signalled hsignal).elim
  | destroy =>
      simp only [hphp] at hphase
      rcases hphase with ⟨hrunning, -⟩ | ⟨hgone, -⟩
      · exact (hrunning.not_signalled hsignal).elim
      · exact (hgone.not_signalled hsignal).elim
  | join =>
      simp only [hphp] at hphase
      exact Or.inl ⟨rfl, hphase⟩
  | delete =>
      simp only [hphp] at hphase
      exact (hphase.not_signalled hsignal).elim
  | returned success =>
      cases success with
      | true => exact Or.inr rfl
      | false =>
          simp only [hphp] at hphase
          exact (hphase.not_signalled hsignal).elim

theorem wakeup_inv (hinv : Inv s) (hphp : s.php = .wait) : Inv { s with php := .relock } where
  php_owner hmutex := Or.inr (Or.inr (hinv.ready_of_owner (by simp [hphp]) (by simp [hphp]) hmutex))
  php_holds := by simp
  handler_owner := hinv.handler_owner
  ready_iff := hinv.ready_iff
  seen_ready := by simp
  no_timer _ := hinv.no_timer (by simp [hphp])
  phase := hinv.phase.wake hphp

/-- A step of the handler thread after its start-up. -/
theorem Inv.after_start_up (hinv : Inv s) {pc : HandlerPc} {pending : Bool}
    (hold : s.handler.notified = true ∧ s.handler.locked = false)
    (hnew : pc.notified = true ∧ pc.locked = false)
    (hphase : Phase { s with handler := pc, pending := pending }) :
    Inv { s with handler := pc, pending := pending } where
  php_owner := hinv.php_owner
  php_holds := hinv.php_holds
  handler_owner := by
    have howner := hinv.handler_owner
    rw [hold.2] at howner
    rw [hnew.2]
    exact howner
  ready_iff := by
    have hready := hinv.ready_iff
    rw [hold.1] at hready
    rw [hnew.1]
    exact hready
  seen_ready := hinv.seen_ready
  no_timer := hinv.no_timer
  phase := hphase

/-- A step of the start-up of the handler thread: it may set `tid` and `ready`, and
it does not touch the mutex while the PHP thread owns it. -/
theorem Inv.start_up (hinv : Inv s) {pc : HandlerPc} {mutex : Option Owner} {tid ready : Bool}
    (hold : s.handler.early = true) (hnew : pc.early = true)
    (hphp : mutex = some .php ↔ s.mutex = some .php)
    (hhandler : mutex = some .handler ↔ pc.locked = true)
    (hready : ready = true ↔ pc.notified = true) (hkept : s.ready = true → ready = true) :
    Inv { s with handler := pc, mutex := mutex, tid := tid, ready := ready } where
  php_owner hmutex := (hinv.php_owner (hphp.mp hmutex)).imp_right (Or.imp_right hkept)
  php_holds hpc := hphp.mpr (hinv.php_holds hpc)
  handler_owner := hhandler
  ready_iff := hready
  seen_ready hpc := hkept (hinv.seen_ready hpc)
  no_timer := hinv.no_timer
  phase := hinv.phase.start_up hold hnew

theorem handlerStep_inv (hinv : Inv s) (hstep : handlerStep s = some next) : Inv next := by
  have hphase := hinv.phase
  have howner := hinv.handler_owner
  have hready := hinv.ready_iff
  unfold handlerStep at hstep
  cases hhandler : s.handler with
  | absent => simp [hhandler] at hstep
  | start =>
      simp only [hhandler] at hstep howner hready
      obtain rfl := Option.some.inj hstep
      exact hinv.start_up (by rw [hhandler]; rfl) rfl Iff.rfl howner hready id
  | lock =>
      simp only [hhandler, Option.ite_none_right_eq_some] at hstep hready
      obtain ⟨hfree, hnext⟩ := hstep
      obtain rfl := Option.some.inj hnext
      exact hinv.start_up (by rw [hhandler]; rfl) rfl (by simp [hfree]) (by simp [HandlerPc.locked])
        hready id
  | setReady =>
      simp only [hhandler] at hstep howner
      obtain rfl := Option.some.inj hstep
      exact hinv.start_up (by rw [hhandler]; rfl) rfl Iff.rfl howner (by simp [HandlerPc.notified])
        (fun _ => rfl)
  | broadcast =>
      simp only [hhandler] at hstep howner hready
      obtain rfl := Option.some.inj hstep
      have hnext : Inv { s with handler := .unlock } :=
        hinv.start_up (by rw [hhandler]; rfl) rfl Iff.rfl howner hready id
      by_cases hphp : s.php = .wait
      · rw [if_pos hphp]
        exact wakeup_inv hnext hphp
      · rw [if_neg hphp]
        exact hnext
  | unlock =>
      simp only [hhandler] at hstep howner hready
      obtain rfl := Option.some.inj hstep
      have hmutex := howner.mpr rfl
      exact hinv.start_up (by rw [hhandler]; rfl) rfl (by simp [hmutex])
        (by simp [HandlerPc.locked])
        hready id
  | wait =>
      simp only [hhandler, Option.ite_none_right_eq_some] at hstep
      obtain ⟨hpending, hnext⟩ := hstep
      obtain rfl := Option.some.inj hnext
      apply hinv.after_start_up (by rw [hhandler]; exact ⟨rfl, rfl⟩) ⟨rfl, rfl⟩
      rcases hphase.signalled (Or.inl ⟨hhandler, hpending⟩) with ⟨hphp, hleaving⟩ | hphp
      · simp only [Phase, hphp]
        exact ⟨Or.inr (Or.inl rfl), hleaving.2⟩
      · simp only [Phase, hphp]
  | test =>
      simp only [hhandler] at hstep
      obtain rfl := Option.some.inj hstep
      rcases hphase.signalled (Or.inr hhandler) with ⟨hphp, hleaving⟩ | hphp
      · rw [if_pos hleaving.2.1]
        apply hinv.after_start_up (by rw [hhandler]; exact ⟨rfl, rfl⟩) ⟨rfl, rfl⟩
        simp only [Phase, hphp]
        exact ⟨Or.inr (Or.inr rfl), hleaving.2⟩
      · apply hinv.after_start_up (by rw [hhandler]; exact ⟨rfl, rfl⟩)
        · split <;> exact ⟨rfl, rfl⟩
        · simp only [Phase, hphp]
  | exited => simp [hhandler] at hstep
  | joined => simp [hhandler] at hstep

theorem step_inv {action : Action} (hinv : Inv s) (hfine : Undisturbed s action)
    (hstep : step s action = some next) : Inv next := by
  cases action with
  | php ok => exact phpStep_inv hinv hfine hstep
  | handler => exact handlerStep_inv hinv hstep
  | wakeup =>
      simp only [step, Option.ite_none_right_eq_some] at hstep
      obtain ⟨hphp, hnext⟩ := hstep
      obtain rfl := Option.some.inj hnext
      exact wakeup_inv hinv hphp

/-- The handler thread always finds the mutex free, because the PHP thread does
not keep it. -/
theorem Inv.mutex_free (hinv : Inv s) (hphp : s.php = .join) (hhandler : s.handler = .lock) :
    s.mutex = none := by
  cases hmutex : s.mutex with
  | none => rfl
  | some owner =>
      cases owner with
      | php =>
          have hready := hinv.ready_of_owner (by simp [hphp]) (by simp [hphp]) hmutex
          simp [hinv.ready_iff, hhandler, HandlerPc.notified] at hready
      | handler =>
          simp [hinv.handler_owner, hhandler, HandlerPc.locked] at hmutex

theorem Inv.noDeadlock (hinv : Inv s) : NoDeadlock s := by
  intro hphp
  have hleaving := hinv.phase
  simp only [Phase, hphp] at hleaving
  simp only [step, handlerStep]
  cases hhandler : s.handler with
  | absent | joined => simp [Leaving, hhandler, HandlerPc.early] at hleaving
  | lock => exact Or.inr (by simp [hinv.mutex_free hphp hhandler])
  | wait =>
      have hpending := hleaving.pending_of_early (by rw [hhandler]; rfl)
      exact Or.inr (by simp [hpending])
  | start | setReady | broadcast | unlock | test => exact Or.inr rfl
  | exited => exact Or.inl rfl

theorem Inv.cleanedUp (hinv : Inv s) : CleanedUp s := by
  intro hphp
  have hgone := hinv.phase
  simp only [Phase, hphp] at hgone
  obtain ⟨-, hcreated, hdeleted⟩ := hinv.no_timer (by simp [hphp])
  exact ⟨hgone.1, hgone.2, hdeleted.trans hcreated.symm⟩

end Steps

section Disturbed

variable {s next : State}

/-- The PHP thread unwinds and the handler thread is going to outlive it: nobody
waits for it, or it waits for the mutex that the PHP thread has kept. -/
def Spoiled (s : State) : Prop :=
  (s.php = .delete ∨ s.php = .returned false) ∧ s.handler ≠ .absent ∧ s.handler ≠ .joined ∨
    (s.php = .destroy ∧ s.threadValid = true ∨ s.php = .kill ∨ s.php = .join) ∧
      s.mutex = some .php ∧ (s.handler = .start ∨ s.handler = .lock)

theorem Inv.waiting_for_mutex (hinv : Inv s) (hmutex : s.mutex ≠ some .handler)
    (hclear : ¬s.ready = true) (hrunning : Running s) : s.handler = .start ∨ s.handler = .lock := by
  have hout := hinv.not_locked hmutex
  have hearly := hrunning.1
  rw [hinv.ready_iff] at hclear
  cases hhandler : s.handler <;>
    simp_all [HandlerPc.locked, HandlerPc.notified, HandlerPc.early]

theorem disturbed_spoiled {action : Action} (hinv : Inv s) (hbad : ¬Undisturbed s action)
    (hstep : step s action = some next) : Spoiled next := by
  match action with
  | .php true | .handler | .wakeup => exact absurd trivial hbad
  | .php false =>
      have hphase := hinv.phase
      simp only [Undisturbed, Classical.not_and_iff_not_or_not, Classical.not_imp,
        Classical.not_not] at hbad
      rcases hbad with ⟨htest | hrelock, hclear⟩ | hkill
      · -- the call of `pthread_cond_wait` fails at once
        have hmutex := hinv.php_holds (Or.inl htest)
        simp only [Phase, htest] at hphase
        simp [step, phpStep, htest, hclear] at hstep
        subst hstep
        exact Or.inr ⟨Or.inl ⟨rfl, hphase.2⟩, hmutex,
          hinv.waiting_for_mutex (by simp [hmutex]) hclear hphase.1⟩
      · -- it has waited, and reports the error with the mutex taken again
        simp only [Phase, hrelock] at hphase
        simp only [step, phpStep, hrelock, Option.ite_none_right_eq_some] at hstep
        obtain ⟨hfree, hnext⟩ := hstep
        obtain rfl := Option.some.inj hnext
        exact Or.inr ⟨Or.inl ⟨rfl, hphase.2⟩, rfl,
          hinv.waiting_for_mutex (by simp [hfree]) hclear hphase.1⟩
      · simp only [Phase, hkill] at hphase
        simp only [step, phpStep, hkill] at hstep
        obtain rfl := Option.some.inj hstep
        have hearly := hphase.1.1
        refine Or.inl ⟨Or.inl rfl, ?_, ?_⟩ <;>
          · intro hhandler
            simp only at hhandler
            rw [hhandler] at hearly
            cases hearly

/-- The handler thread by itself neither vanishes nor moves the PHP thread,
unless that thread waits for the broadcast. -/
theorem handlerStep_frame (hphp : s.php ≠ .wait) (hstep : handlerStep s = some next) :
    next.php = s.php ∧ next.threadValid = s.threadValid ∧ next.handler ≠ .absent ∧
      next.handler ≠ .joined := by
  unfold handlerStep at hstep
  cases hhandler : s.handler with
  | absent | exited | joined => simp [hhandler] at hstep
  | start | setReady | unlock =>
      simp only [hhandler] at hstep
      obtain rfl := Option.some.inj hstep
      simp
  | lock | wait =>
      simp only [hhandler, Option.ite_none_right_eq_some] at hstep
      obtain ⟨-, hnext⟩ := hstep
      obtain rfl := Option.some.inj hnext
      simp
  | broadcast =>
      simp only [hhandler] at hstep
      obtain rfl := Option.some.inj hstep
      simp [hphp]
  | test =>
      simp only [hhandler] at hstep
      obtain rfl := Option.some.inj hstep
      refine ⟨rfl, rfl, ?_, ?_⟩ <;> (simp only; split <;> simp)

/-- Without the mutex the handler thread does not get beyond its lock. -/
theorem handlerStep_blocked (hmutex : s.mutex = some .php)
    (hhandler : s.handler = .start ∨ s.handler = .lock) (hstep : handlerStep s = some next) :
    s.handler = .start ∧ next.handler = .lock ∧ next.mutex = some .php := by
  rcases hhandler with hstart | hlock
  · simp only [handlerStep, hstart] at hstep
    obtain rfl := Option.some.inj hstep
    exact ⟨hstart, rfl, hmutex⟩
  · simp [handlerStep, hlock, hmutex] at hstep

theorem phpStep_spoiled {ok : Bool} (hspoiled : Spoiled s) (hstep : phpStep s ok = some next) :
    Spoiled next := by
  unfold phpStep at hstep
  rcases hspoiled with ⟨hdelete | hreturned, hhandler⟩ | ⟨⟨hdestroy, hvalid⟩ | hkill | hjoin, hheld⟩
  · simp only [hdelete] at hstep
    split at hstep <;> obtain rfl := Option.some.inj hstep
    · exact Or.inl ⟨Or.inr rfl, hhandler⟩
    · exact Or.inl ⟨Or.inr rfl, hhandler⟩
  · simp [hreturned] at hstep
  · simp only [hdestroy] at hstep
    rw [if_pos hvalid] at hstep
    obtain rfl := Option.some.inj hstep
    exact Or.inr ⟨Or.inr (Or.inl rfl), hheld⟩
  · simp only [hkill] at hstep
    split at hstep <;> obtain rfl := Option.some.inj hstep
    · exact Or.inr ⟨Or.inr (Or.inr rfl), hheld⟩
    · refine Or.inl ⟨Or.inl rfl, ?_⟩
      rcases hheld.2 with hhandler | hhandler <;> simp [hhandler]
  · rcases hheld.2 with hhandler | hhandler <;> simp [hjoin, hhandler] at hstep

theorem Spoiled.not_wait (hspoiled : Spoiled s) : s.php ≠ .wait := by
  rcases hspoiled with ⟨hphp | hphp, -⟩ | ⟨⟨hphp, -⟩ | hphp | hphp, -⟩ <;> simp [hphp]

theorem step_spoiled {action : Action} (hspoiled : Spoiled s)
    (hstep : step s action = some next) : Spoiled next := by
  have hwait := hspoiled.not_wait
  cases action with
  | php ok => exact phpStep_spoiled hspoiled hstep
  | handler =>
      obtain ⟨hphp, hvalid, hpresent⟩ := handlerStep_frame hwait hstep
      rcases hspoiled with ⟨hdone, -⟩ | ⟨hunwinding, hmutex, hhandler⟩
      · exact Or.inl ⟨hphp ▸ hdone, hpresent⟩
      · obtain ⟨-, hlock, hheld⟩ := handlerStep_blocked hmutex hhandler hstep
        exact Or.inr ⟨hphp ▸ hvalid ▸ hunwinding, hheld, Or.inr hlock⟩
  | wakeup => simp [step, hwait] at hstep

/-- Steps without further errors may lead to a deadlock, or to a return that
leaves something behind. -/
def CanFail (s : State) : Prop :=
  ∃ more t, Transition.Along step Undisturbed s more ∧ Transition.run step s more = some t ∧
    ¬(NoDeadlock t ∧ CleanedUp t)

theorem CanFail.now (hbad : ¬(NoDeadlock s ∧ CleanedUp s)) : CanFail s :=
  ⟨[], s, trivial, rfl, hbad⟩

theorem CanFail.later {action : Action} (hstep : step s action = some next)
    (hfine : Undisturbed s action) (hfail : CanFail next) : CanFail s := by
  obtain ⟨more, t, halong, hrun, hbad⟩ := hfail
  refine ⟨action :: more, t, ⟨hfine, ?_⟩, ?_, hbad⟩
  · intro other hother
    obtain rfl := Option.some.inj (hstep.symm.trans hother)
    exact halong
  · rw [Transition.run, hstep]
    exact hrun

theorem canFail_returned (hphp : s.php = .returned false) (habsent : s.handler ≠ .absent)
    (hjoined : s.handler ≠ .joined) : CanFail s := by
  apply CanFail.now
  rintro ⟨-, hclean⟩
  rcases (hclean hphp).1 with hhandler | hhandler
  · exact habsent hhandler
  · exact hjoined hhandler

theorem canFail_join (hphp : s.php = .join) (hmutex : s.mutex = some .php)
    (hhandler : s.handler = .start ∨ s.handler = .lock) : CanFail s := by
  rcases hhandler with hstart | hlock
  · have hstep : step s .handler = some { s with handler := .lock, tid := true } := by
      simp [step, handlerStep, hstart]
    refine CanFail.later hstep trivial (CanFail.now ?_)
    rintro ⟨hlive, -⟩
    simpa [step, handlerStep, hmutex] using hlive hphp
  · apply CanFail.now
    rintro ⟨hlive, -⟩
    simpa [step, handlerStep, hlock, hmutex] using hlive hphp

/-- From a spoiled state both threads can get stuck, or the PHP thread returns
and leaves the handler thread behind. -/
theorem Spoiled.canFail (hspoiled : Spoiled s) : CanFail s := by
  have hkill {s : State} (hphp : s.php = .kill) (hmutex : s.mutex = some .php)
      (hhandler : s.handler = .start ∨ s.handler = .lock) : CanFail s := by
    have hstep : step s (.php true) = some { s with php := .join, pending := true } := by
      simp [step, phpStep, hphp]
    exact CanFail.later hstep trivial (canFail_join rfl hmutex hhandler)
  rcases hspoiled with ⟨hdelete | hreturned, habsent, hjoined⟩ |
    ⟨⟨hdestroy, hvalid⟩ | hphp | hjoin, hmutex, hhandler⟩
  · cases hvalid : s.timerValid with
    | true =>
        have hstep : step s (.php true) = some { s with
            php := .returned false, timerValid := false
            timersDeleted := s.timersDeleted + 1 } := by
          simp [step, phpStep, hdelete, hvalid]
        exact CanFail.later hstep trivial (canFail_returned rfl habsent hjoined)
    | false =>
        have hstep : step s (.php true) = some { s with php := .returned false } := by
          simp [step, phpStep, hdelete, hvalid]
        exact CanFail.later hstep trivial (canFail_returned rfl habsent hjoined)
  · exact canFail_returned hreturned habsent hjoined
  · have hstep : step s (.php true) =
        some { s with php := .kill, threadValid := false, killed := true } := by
      simp [step, phpStep, hdestroy, hvalid]
    exact CanFail.later hstep trivial (hkill rfl hmutex hhandler)
  · exact hkill hphp hmutex hhandler
  · exact canFail_join hjoin hmutex hhandler

end Disturbed

/-- Initialisation of the timer library cleans up after a failure exactly if
`pthread_cond_wait` has reported no error while `ready` was clear and
`pthread_kill` has not failed: then no deadlock is ahead and nothing is left when
`excimer_timer_init` returns. -/
theorem failed_init_cleans_up_iff {actions : List Action} {s : State}
    (hrun : Transition.run step {} actions = some s) :
    Transition.Along step Undisturbed {} actions ↔
      ∀ more t, Transition.Along step Undisturbed s more → Transition.run step s more = some t →
        NoDeadlock t ∧ CleanedUp t := by
  have hcases := Transition.Along.dichotomy Inv Spoiled (fun _ _ _ => step_inv)
    (fun _ _ _ => disturbed_spoiled) (fun _ _ _ => step_spoiled) initial_inv hrun
  rcases hcases with ⟨halong, hinv⟩ | ⟨hnot, hspoiled⟩
  · refine ⟨fun _ more t hmore hrest => ?_, fun _ => halong⟩
    have hend : Inv t := hmore.invariant Inv (fun _ _ _ => step_inv) hinv hrest
    exact ⟨hend.noDeadlock, hend.cleanedUp⟩
  · refine ⟨fun halong => absurd halong hnot, fun hgood => ?_⟩
    obtain ⟨more, t, hmore, hrest, hbad⟩ := hspoiled.canFail
    exact absurd (hgood more t hmore hrest) hbad

/-- A handshake with a wakeup that no broadcast has caused, after which
`timer_create` fails. -/
def timerCreateFails : List Action :=
  [.php true, .php true, .php true, .wakeup, .php true, .php true, .handler, .handler, .handler,
   .handler, .handler, .php true, .php true, .php true, .php false]

theorem failed_init_cleans_up_iff_timerCreateFails :
    ∃ s, Transition.run step {} timerCreateFails = some s ∧ s.php = .destroy ∧
      ∀ more t, Transition.Along step Undisturbed s more → Transition.run step s more = some t →
        NoDeadlock t ∧ CleanedUp t := by
  obtain ⟨s, hrun, hphp⟩ := Transition.run_check step {} timerCreateFails
    (fun s => decide (s.php = .destroy)) (by decide)
  exact ⟨s, hrun, of_decide_eq_true hphp, (failed_init_cleans_up_iff hrun).mp (by decide)⟩

/-- The first `pthread_cond_wait` fails before the handler thread has run. -/
def condWaitFails : List Action :=
  [.php true, .php true, .php false, .php true, .php true, .handler]

theorem condWaitFails_deadlocks :
    ∃ s, Transition.run step {} condWaitFails = some s ∧ s.php = .join ∧ ¬NoDeadlock s ∧
      ∀ action, step s action = none := by
  obtain ⟨s, hrun, hcheck⟩ := Transition.run_check step {} condWaitFails
    (fun s => decide (s.php = .join ∧ s.handler = .lock ∧ s.mutex = some .php)) (by decide)
  obtain ⟨hphp, hhandler, hmutex⟩ := of_decide_eq_true hcheck
  have hstuck : ∀ action, step s action = none := by
    intro action
    cases action with
    | php ok => simp [step, phpStep, hphp, hhandler]
    | handler => simp [step, handlerStep, hhandler, hmutex]
    | wakeup => simp [step, hphp]
  refine ⟨s, hrun, hphp, ?_, hstuck⟩
  intro hlive
  simpa [hstuck, hhandler] using hlive hphp

end Excimer.Timer.Startup
