import Excimer.Timer.Delivery

/-!
The thread-safe build, in which `excimer_timer_tls` has one instance in every
thread. The PHP threads initialise, dequeue and remove on their own instances,
but `excimer_timer_handle` names the same variable while it runs on the handler
thread of a timer, so it locks the mutex and fills the list of an instance that
no PHP thread ever looks at.
-/

namespace Excimer.Timer

open CircularList

/-- The lists of the PHP threads are empty, and no callback has been or is
going to be called. -/
structure Unheard (s : State) : Prop where
  head : ∀ php, (s.tls (.php php)).pendingHead = none
  owner : ∀ timer tls, (s.timers timer).tls = some tls → ∃ php, tls = .php php
  stack : ∀ php frame, frame ∈ s.stack php →
    frame = .drain ∨ ∃ timer pc, frame = .destroy timer pc
  trace : ∀ timer count, .callback timer count ∉ s.trace

theorem initial_unheard : Unheard State.initial where
  head _ := rfl
  owner timer tls htls := by cases htls
  stack php frame hmem := by cases hmem
  trace timer count hmem := by cases hmem

/-- Removing from a list that has no head leaves it without one. -/
theorem listRemove_head {links after : Links TimerId} {timer : TimerId}
    (hhead : links.head = none) (hremove : listRemove links timer = some after) :
    after.head = none := by
  unfold listRemove at hremove
  cases hnext : links.next timer with
  | none =>
      simp only [hnext, Option.some.injEq] at hremove
      exact hremove ▸ hhead
  | some next =>
      simp only [hnext] at hremove
      split at hremove
      · cases hremove
        rfl
      · simp only [Option.bind_eq_bind, Option.bind_eq_some_iff, Option.some.injEq,
          exists_eq_left', Option.pure_def] at hremove
        obtain ⟨prev, _, rfl⟩ := hremove
        simp [hhead]

namespace Unheard

variable {s next : State}

theorem frame (h : Unheard s)
    (hhead : ∀ php, (s.tls (.php php)).pendingHead = none →
      (next.tls (.php php)).pendingHead = none)
    (howner : ∀ timer, (next.timers timer).tls = (s.timers timer).tls)
    (hstack : next.stack = s.stack) (htrace : next.trace = s.trace) : Unheard next where
  head php := hhead php (h.head php)
  owner timer tls htls := h.owner timer tls ((howner timer).symm.trans htls)
  stack := hstack ▸ h.stack
  trace := htrace ▸ h.trace

theorem record (h : Unheard s) (event : Event)
    (hevent : ∀ timer count, event ≠ .callback timer count) : Unheard (s.record event) where
  head := h.head
  owner := h.owner
  stack := h.stack
  trace timer count hmem := by
    rcases List.mem_cons.mp hmem with heq | hold
    · exact hevent timer count heq.symm
    · exact h.trace timer count hold

theorem set_stack (h : Unheard s) {php : Nat} {frames : List Frame}
    (hframes : ∀ frame ∈ frames, frame = .drain ∨ ∃ timer pc, frame = .destroy timer pc) :
    Unheard (s.setStack php frames) where
  head := h.head
  owner := h.owner
  stack other frame hmem := by
    by_cases heq : other = php
    · subst heq
      simp only [State.setStack, Function.update_self] at hmem
      exact hframes frame hmem
    · simp only [State.setStack, Function.update_of_ne heq] at hmem
      exact h.stack other frame hmem
  trace := h.trace

theorem set_running (h : Unheard s) (timer : TimerId) (running : Bool) :
    Unheard (s.setRunning timer running) := by
  refine h.frame (fun _ => id) ?_ rfl rfl
  intro other
  by_cases heq : other = timer <;> simp [State.setRunning, State.setTimer, heq]

theorem set_mutex (h : Unheard s) (php : Nat) (holder : Option Thread) :
    Unheard (s.setMutex (.php php) holder) := by
  refine h.frame ?_ (fun _ => rfl) rfl rfl
  intro other hhead
  by_cases heq : other = php
  · subst heq
    simpa [State.setMutex] using hhead
  · simpa [State.setMutex, heq] using hhead

/-- A handler thread writes to its own instance only. -/
theorem handle (h : Unheard s) {timer : TimerId} {overrunCount : Int}
    (hstep : step .zts s (.handle timer overrunCount) = some next) : Unheard next := by
  cases step_moves hstep with
  | @handle _ _ number _ _ _ henqueue =>
      obtain ⟨_, henqueue⟩ := Option.ite_none_right_eq_some.mp henqueue
      obtain ⟨links, _, rfl⟩ := Option.map_eq_some_iff.mp henqueue
      set counted := s.setTimer timer { s.timers timer with
        eventCount := (s.timers timer).eventCount + toInt (overrunCount + 1) } with hcounted
      have hafter : Unheard (counted.withLinks (.handler number) links) := by
        refine h.frame ?_ ?_ rfl rfl
        · intro php hhead
          simpa [State.withLinks, hcounted, State.setTimer] using hhead
        · intro other
          by_cases heq : other = timer <;>
            simp [State.withLinks, hcounted, State.setTimer, heq]
      exact ⟨hafter.head, hafter.owner, hafter.stack,
        (hafter.record (.handle timer overrunCount) (by simp)).trace⟩

theorem init (h : Unheard s) (php : Nat) (timer : TimerId) (ok : Bool) :
    Unheard (timerInit .zts php s timer ok) := by
  have hrecord := h.record (.init timer ok) (by simp)
  refine ⟨?_, ?_, ?_, ?_⟩
  · intro other
    have hold := h.head other
    by_cases heq : other = php
    · cases ok <;> simpa [timerInit, State.record, State.setTimer, Build.zts, heq] using heq ▸ hold
    · cases ok <;> simpa [timerInit, State.record, State.setTimer, Build.zts, heq] using hold
  · intro other tls htls
    by_cases heq : other = timer
    · refine ⟨php, ?_⟩
      cases ok <;> simp [timerInit, State.record, State.setTimer, Build.zts, heq] at htls <;>
        exact htls.symm
    · refine h.owner other tls ?_
      cases ok <;> simpa [timerInit, State.record, State.setTimer, heq] using htls
  · cases ok <;> exact hrecord.stack
  · cases ok <;> exact hrecord.trace

theorem start (h : Unheard s) (timer : TimerId) (period initial : Timespec) (ok : Bool) :
    Unheard (timerStart s timer period initial ok) := by
  unfold timerStart
  repeat' split
  · exact h.record _ (by simp)
  · exact h.record _ (by simp)
  · exact (h.set_running timer true).record _ (by simp)
  · exact h

theorem stop (h : Unheard s) (timer : TimerId) (ok : Bool) :
    Unheard (timerStop s timer ok) := by
  unfold timerStop
  repeat' split
  · exact h.record _ (by simp)
  · exact (h.set_running timer false).record _ (by simp)
  · exact h
  · exact h.record _ (by simp)

theorem destroy (h : Unheard s) (php : Nat) (timer : TimerId) :
    Unheard (timerDestroy .zts php s timer) := by
  unfold timerDestroy
  repeat' split
  · exact h.record _ (by simp)
  · exact (h.record _ (by simp)).record _ (by simp)
  · apply (h.set_running timer false).set_stack
    intro frame hmem
    rcases List.mem_cons.mp hmem with rfl | hrest
    · exact Or.inr ⟨timer, .timerlib, rfl⟩
    · exact h.stack php frame hrest

/-- The frames below an `excimer_timer_destroy`, with or without its own. -/
theorem frames_below (h : Unheard s) {php : Nat} {frame : Frame} {rest : List Frame}
    (hstack : s.stack php = frame :: rest) :
    ∀ other ∈ rest, other = .drain ∨ ∃ timer pc, other = .destroy timer pc := by
  intro other hmem
  apply h.stack php other
  rw [hstack]
  exact List.mem_cons_of_mem _ hmem

theorem frames_destroy (h : Unheard s) {php : Nat} {frame : Frame} {rest : List Frame}
    (hstack : s.stack php = frame :: rest) (timer : TimerId) (pc : DestroyPc) :
    ∀ other ∈ Frame.destroy timer pc :: rest,
      other = .drain ∨ ∃ timer pc, other = .destroy timer pc := by
  intro other hmem
  rcases List.mem_cons.mp hmem with rfl | hmem
  · exact Or.inr ⟨timer, pc, rfl⟩
  · exact h.frames_below hstack other hmem

theorem destroy_next (h : Unheard s) {php : Nat}
    (hstep : phpStep .zts php s .destroyNext = some next) : Unheard next := by
  cases phpStep_moves hstep with
  | join hstack =>
      apply Unheard.set_stack _ (h.frames_destroy hstack _ .lock)
      refine h.frame ?_ (fun _ => rfl) rfl rfl
      intro other hhead
      by_cases heq : other = php
      · subst heq
        simpa [Build.zts] using hhead
      · simpa [Build.zts, heq] using hhead
  | lock hstack => exact (h.set_mutex php _).set_stack (h.frames_destroy hstack _ .remove)
  | remove hstack hremove =>
      apply Unheard.set_stack _ (h.frames_destroy hstack _ .unlock)
      refine h.frame ?_ (fun _ => rfl) rfl rfl
      intro other hhead
      by_cases heq : other = php
      · subst heq
        simpa [State.withLinks, Build.zts] using listRemove_head hhead hremove
      · simpa [State.withLinks, Build.zts, heq] using hhead
  | unlock hstack => exact (h.set_mutex php none).set_stack (h.frames_destroy hstack _ .finish)
  | @finish timer rest hstack =>
      apply Unheard.record _ _ (by simp)
      apply Unheard.set_stack _ (h.frames_below hstack)
      refine ⟨h.head, ?_, h.stack, h.trace⟩
      intro other tls htls
      by_cases heq : other = timer
      · simp [State.setTimer, heq] at htls
      · exact h.owner other tls (by simpa [State.setTimer, heq] using htls)

/-- The interrupt loop of a PHP thread finds its list empty. -/
theorem dequeue_empty (h : Unheard s) {php : Nat}
    (hstep : phpStep .zts php s .dequeue = some next) :
    ∃ rest, s.stack php = .drain :: rest ∧ next = s.setStack php rest := by
  cases phpStep_moves hstep with
  | @dequeue rest result hstack hdequeue =>
      obtain ⟨_, hdequeue⟩ := Option.ite_none_right_eq_some.mp hdequeue
      have hempty : listDequeue (s.links (.php php)) = some (s.links (.php php), none) := by
        have hhead : (s.links (.php php)).head = none := h.head php
        simp only [listDequeue, hhead]
      have htls : Build.zts.tls (.php php) = .php php := rfl
      rw [htls, hempty] at hdequeue
      cases hdequeue
      exact ⟨rest, hstack, by simp only [withLinks_links]⟩

theorem dequeue (h : Unheard s) {php : Nat}
    (hstep : phpStep .zts php s .dequeue = some next) : Unheard next := by
  obtain ⟨rest, hstack, rfl⟩ := h.dequeue_empty hstep
  exact h.set_stack (h.frames_below hstack)

/-- There is no callback to be called or to return from. -/
theorem no_callback (h : Unheard s) {php : Nat} {frame : Frame} {rest : List Frame}
    (hstack : s.stack php = frame :: rest) :
    (∀ timer count, frame ≠ .deliver timer count) ∧ ∀ timer, frame ≠ .callback timer := by
  rcases h.stack php frame (by simp [hstack]) with rfl | ⟨timer, pc, rfl⟩
  · exact ⟨nofun, nofun⟩
  · exact ⟨nofun, nofun⟩

theorem php_step (h : Unheard s) {php : Nat} (move : Move)
    (hstep : phpStep .zts php s move = some next) : Unheard next := by
  cases phpStep_moves hstep with
  | init => exact h.init php _ _
  | start => exact h.start _ _ _ _
  | stop => exact h.stop _ _
  | destroy => exact h.destroy php _
  | join => exact h.destroy_next hstep
  | lock => exact h.destroy_next hstep
  | remove => exact h.destroy_next hstep
  | unlock => exact h.destroy_next hstep
  | finish => exact h.destroy_next hstep
  | interrupt =>
      have hcleared : Unheard { s with vmInterrupt := Function.update s.vmInterrupt php false } :=
        ⟨h.head, h.owner, h.stack, h.trace⟩
      apply hcleared.set_stack
      intro frame hmem
      rcases List.mem_cons.mp hmem with rfl | hrest
      · exact Or.inl rfl
      · exact h.stack php frame hrest
  | dequeue => exact h.dequeue hstep
  | call hstack => exact absurd rfl ((h.no_callback hstack).1 _ _)
  | ret hstack => exact absurd rfl ((h.no_callback hstack).2 _)

theorem step (h : Unheard s) (action : Action)
    (hstep : Timer.step .zts s action = some next) : Unheard next := by
  cases step_moves hstep with
  | handle => exact h.handle hstep
  | store => exact ⟨h.head, h.owner, h.stack, h.trace⟩
  | raise => exact ⟨h.head, h.owner, h.stack, h.trace⟩
  | php _ hmove => exact h.php_step _ hmove

end Unheard

theorem reachable_unheard {s : State} (hreach : Reachable .zts s) : Unheard s := by
  refine Transition.Reachable.invariant Unheard ?_ ?_ hreach
  · rintro _ rfl
    exact initial_unheard
  · exact fun s action next h hstep => h.step action hstep

/-- An expiry never gets on the list of the thread that created the timer, and
nothing that happens afterwards hands it to a callback. -/
theorem zts_expiry_unheard {s next : State} (hreach : Reachable .zts s) {timer : TimerId}
    {overrunCount : Int} (hstep : step .zts s (.handle timer overrunCount) = some next) :
    (¬ ∃ owner, (next.timers timer).tls = some owner ∧ OnPendingList next owner timer) ∧
      ∀ actions final, Transition.run (step .zts) next actions = some final →
        (∀ php count, .deliver timer count ∉ final.stack php) ∧
          ∀ count, .callback timer count ∉ final.trace := by
  have hnext : Reachable .zts next := hreach.step_from hstep
  have hunheard := reachable_unheard hnext
  refine ⟨?_, ?_⟩
  · rintro ⟨owner, htls, head, hhead, _⟩
    obtain ⟨php, rfl⟩ := hunheard.owner timer owner htls
    rw [hunheard.head php] at hhead
    cases hhead
  · intro actions final hrun
    have hfinal := reachable_unheard (hnext.run_from hrun)
    refine ⟨?_, hfinal.trace timer⟩
    intro php count hmem
    rcases hfinal.stack php _ hmem with heq | ⟨_, _, heq⟩ <;> cases heq

/-- PHP thread 3 creates and starts a timer. -/
def startedByThree : List Action :=
  [.php 3 (.init 5 true), .php 3 (.start 5 ⟨1, 0⟩ ⟨0, 0⟩ true)]

theorem zts_expiry_unheard_startedByThree :
    ∃ s next, Transition.run (step .zts) State.initial startedByThree = some s ∧
      step .zts s (.handle 5 0) = some next ∧
      (next.timers 5).tls = some (.php 3) ∧ (next.timers 5).eventCount = 1 ∧
      ¬ ∃ owner, (next.timers 5).tls = some owner ∧ OnPendingList next owner 5 := by
  obtain ⟨next, hnext, hcheck⟩ := Transition.run_check (step .zts) State.initial
    (startedByThree ++ [.handle 5 0])
    (fun next => (next.timers 5).tls == some (.php 3) && (next.timers 5).eventCount == 1)
    (by decide)
  obtain ⟨s, hrun, hstep⟩ := Transition.run_last hnext
  have hreach : Reachable .zts s := ⟨State.initial, startedByThree, rfl, hrun⟩
  simp only [Bool.and_eq_true, beq_iff_eq] at hcheck
  exact ⟨s, next, hrun, hstep, hcheck.1, hcheck.2, (zts_expiry_unheard hreach hstep).1⟩

/-- The creating thread finds nothing: after the expiry has been reported and
the flag stored, its interrupt function returns without calling anything. -/
theorem zts_expiry_missed :
    ∃ s, Transition.run (step .zts) State.initial (startedByThree ++
        [.handle 5 0, .store 5, .php 3 .interrupt, .php 3 .dequeue]) = some s ∧
      (s.timers 5).tls = some (.php 3) ∧ (s.timers 5).eventCount = 1 ∧ s.stack 3 = [] ∧
      ¬ OnPendingList s (.php 3) 5 := by
  obtain ⟨s, hrun, hcheck⟩ := Transition.run_check (step .zts) State.initial (startedByThree ++
      [.handle 5 0, .store 5, .php 3 .interrupt, .php 3 .dequeue])
    (fun s => (s.timers 5).tls == some (.php 3) && (s.timers 5).eventCount == 1 &&
      s.stack 3 == [] && (s.tls (.php 3)).pendingHead == none) (by decide)
  simp only [Bool.and_eq_true, beq_iff_eq] at hcheck
  obtain ⟨⟨⟨htls, hcount⟩, hstack⟩, hhead⟩ := hcheck
  refine ⟨s, hrun, htls, hcount, hstack, ?_⟩
  rintro ⟨head, hsome, _⟩
  rw [hhead] at hsome
  cases hsome

end Excimer.Timer
