import Excimer.Object.Custody

/-!
The use of freed memory. PHP code can make it happen in two ways: by a value with a
destructor that uses a log or an iterator while `next`, `rewind` or
`invalidate_current` frees its current entry, and by an error handler that gives up
the last reference to a profiler whose callback cannot be called. Apart from these, no
order of calls does it.
-/

namespace Excimer.ObjectStore

open CountedHeap

/-- The reader that a function is in the middle of moving. -/
def Task.mover : Task → Option ℕ
  | .clear reader _ => some reader
  | .release _ | .stop _ _ => none

def State.moving (s : State) : List ℕ := s.tasks.filterMap Task.mover

/-- Where the code uses freed memory. PHP code that runs in the middle of a move uses the
same reader, or the profiler is gone when `ExcimerProfiler_stop` is called for an event. -/
def hazardous (s : State) : Action → Bool
  | .current reader | .next reader | .rewind reader | .invalidateCurrent reader =>
      s.moving.contains reader
  | .resume =>
      match s.tasks with
      | .stop profiler false :: _ => (profilerAt s.heap profiler).isNone
      | _ => false
  | _ => false

/-- The invariant of a state. -/
structure Consistent (s : State) : Prop where
  heap : Inv s.heap s.outside s.moving
  nodup : s.moving.Nodup
  stops : ∀ profiler, .stop profiler true ∈ s.tasks → (profilerAt s.heap profiler).isSome

/-- What a step makes of a state with the invariant. -/
structure Follows (s t : State) : Prop where
  inv : Consistent t
  evolves : Evolves s.heap t.heap
  spared : Heap.Spared Node.refs s.heap s.outside t.heap t.outside

section Steps

variable {s t : State} {action : Action}

theorem mem_outside {task : Task} (htask : task ∈ s.tasks) {id : ℕ} (hid : id ∈ task.refs) :
    id ∈ s.outside :=
  List.mem_append_right _ (List.mem_flatMap.mpr ⟨task, htask, hid⟩)

@[simp] theorem refs_release (rest : List ℕ) :
    (rest.map Task.release).flatMap Task.refs = rest := by
  induction rest with
  | nil => rfl
  | cons id rest ih => simp [Task.refs, ih]

@[simp] theorem movers_cons_release (id : ℕ) (tasks : List Task) :
    (Task.release id :: tasks).filterMap Task.mover = tasks.filterMap Task.mover := rfl

@[simp] theorem movers_cons_clear (id : ℕ) (move : Move) (tasks : List Task) :
    (Task.clear id move :: tasks).filterMap Task.mover = id :: tasks.filterMap Task.mover := rfl

@[simp] theorem movers_cons_stop (id : ℕ) (held : Bool) (tasks : List Task) :
    (Task.stop id held :: tasks).filterMap Task.mover = tasks.filterMap Task.mover := rfl

@[simp] theorem movers_release (rest : List ℕ) (tasks : List Task) :
    (rest.map Task.release ++ tasks).filterMap Task.mover = tasks.filterMap Task.mover := by
  induction rest with
  | nil => rfl
  | cons id rest ih => exact ih

theorem Follows.of_effect
    (heffect : Effect s.heap s.outside t.heap t.outside t.moving) (hnodup : t.moving.Nodup)
    (hstops : ∀ profiler, .stop profiler true ∈ t.tasks → (profilerAt s.heap profiler).isSome) :
    Follows s t where
  inv := ⟨heffect.inv, hnodup, fun profiler htask =>
    heffect.profiler (hstops profiler htask) (mem_outside htask (by simp [Task.refs]))⟩
  evolves := heffect.evolves
  spared := heffect.spared

/-- An operation that is over, and PHP code has its result. -/
theorem Consistent.give (hinv : Consistent s) {h : Heap Node} {value : Option ℕ}
    (heffect : Effect s.heap s.outside h (value.toList ++ s.outside) s.moving) :
    Follows s (s.give h value) := by
  refine .of_effect ?_ hinv.nodup hinv.stops
  simpa [State.give, State.outside, State.moving] using heffect

/-- A reference is given up, and there may be more to give up. -/
theorem Consistent.release (hinv : Consistent s) {id : ℕ} {vars : List ℕ} {tasks : List Task}
    (hperm : s.outside.Perm (id :: (vars ++ tasks.flatMap Task.refs)))
    (hmoving : tasks.filterMap Task.mover = s.moving) (hsub : tasks ⊆ s.tasks) :
    ∃ next rest, zvalPtrDtor s.heap (some id) = some (next, rest) ∧
      Follows s ⟨next, vars, rest.map .release ++ tasks⟩ := by
  obtain ⟨next, rest, hnext, heffect⟩ := (hinv.heap.perm hperm).unref
  have hmoved : State.moving ⟨next, vars, rest.map .release ++ tasks⟩ = s.moving := by
    rw [State.moving, movers_release, hmoving]
  refine ⟨next, rest, hnext, .of_effect ?_ (hmoved ▸ hinv.nodup) ?_⟩
  · rw [hmoved]
    have hstart := (Effect.refl hinv.heap).perm hperm
    refine (hstart.trans heffect).perm ?_
    simp only [State.outside, List.flatMap_append, refs_release]
    exact List.perm_append_comm_assoc _ _ _
  · intro profiler htask
    refine hinv.stops profiler (hsub ?_)
    simpa using htask

theorem mem_vars {id : ℕ} {class_ : Bool} (hpermitted : (s.vars.contains id && class_) = true) :
    id ∈ s.vars ∧ class_ = true := by
  simpa using hpermitted

/-- A move of a reader that is not in the middle of another one. -/
theorem Consistent.move (hinv : Consistent s) {id : ℕ}
    (hpermitted : (s.vars.contains id && (readerAt s.heap id).isSome) = true)
    (hsafe : s.moving.contains id = false) (move : Move) :
    ∃ next tasks, moveReader s.heap id move = some (next, tasks) ∧
      Follows s (s.enter next tasks) := by
  obtain ⟨hmem, hclass⟩ := mem_vars hpermitted
  obtain ⟨⟨target, reader⟩, hreader⟩ := Option.isSome_iff_exists.mp hclass
  have hidle : id ∉ s.moving := by simpa using hsafe
  have hid : id ∈ s.outside := List.mem_append_left _ hmem
  rcases hinv.heap.moveReader hid hidle hreader move with ⟨next, hnext, heffect⟩ |
    ⟨next, rest, hnext, heffect⟩
  · exact ⟨next, [], hnext, .of_effect heffect hinv.nodup hinv.stops⟩
  · have hmoving :
        (s.enter next (rest.map .release ++ [.clear id move])).moving = id :: s.moving := by
      rw [State.enter, State.moving, List.append_assoc, movers_release]
      rfl
    refine ⟨next, _, hnext, .of_effect ?_ ?_ ?_⟩
    · rw [hmoving]
      refine heffect.perm ?_
      simp only [State.enter, State.outside, List.append_assoc, List.flatMap_append, refs_release]
      have hmiddle : (rest ++ s.vars ++ id :: s.tasks.flatMap Task.refs).Perm
          (id :: (rest ++ s.vars ++ s.tasks.flatMap Task.refs)) := List.perm_middle
      rw [List.append_assoc, List.append_assoc] at hmiddle
      exact hmiddle.symm.trans (List.perm_append_comm_assoc _ _ _)
    · rw [hmoving]
      exact List.nodup_cons.mpr ⟨hidle, hinv.nodup⟩
    · intro profiler htask
      exact hinv.stops profiler (by simpa [State.enter] using htask)

/-- The innermost function goes on. -/
theorem resume_follows (hinv : Consistent s) (hpermitted : permitted s .resume = true)
    (hsafe : hazardous s .resume = false) : ∃ next, resume s = some next ∧ Follows s next := by
  unfold resume
  split
  case h_1 htasks => simp [permitted, htasks] at hpermitted
  case h_2 id tasks htasks =>
    have hperm : s.outside.Perm (id :: (s.vars ++ tasks.flatMap Task.refs)) := by
      simp only [State.outside, htasks]
      exact List.perm_middle
    obtain ⟨next, rest, hnext, hfollows⟩ := hinv.release hperm
      (by simp [State.moving, htasks]) (by rw [htasks]; exact List.subset_cons_self _ _)
    exact ⟨_, by rw [hnext, Option.map_some], hfollows⟩
  case h_3 reader move tasks htasks =>
    have hheap := hinv.heap
    have hnodup := hinv.nodup
    have hmoving : s.moving = reader :: tasks.filterMap Task.mover := by
      simp [State.moving, htasks]
    rw [hmoving] at hheap hnodup
    obtain ⟨hover, hrest⟩ := List.nodup_cons.mp hnodup
    obtain ⟨next, hnext, heffect⟩ := hheap.clearCurrent
      (mem_outside (by rw [htasks]; exact List.mem_cons_self) (by simp [Task.refs])) hover move
    refine ⟨_, by rw [hnext, Option.map_some], .of_effect ?_ ?_ ?_⟩
    · simpa [State.outside, State.moving, htasks, Task.refs] using heffect
    · simpa [State.moving] using hrest
    · intro profiler htask
      exact hinv.stops profiler (by simpa [htasks] using htask)
  case h_4 profiler held tasks htasks =>
    obtain ⟨zLog, hzLog⟩ : ∃ zLog, profilerAt s.heap profiler = some zLog := by
      apply Option.isSome_iff_exists.mp
      cases held with
      | true => exact hinv.stops profiler (by simp [htasks])
      | false => simpa [hazardous, htasks] using hsafe
    refine ⟨_, by rw [hzLog, Option.map_some], .of_effect ?_ ?_ ?_⟩
    · have hsame := Effect.refl hinv.heap
      cases held <;> simpa [State.outside, State.moving, htasks, Task.refs] using hsame
    · have hsame := hinv.nodup
      cases held <;> simpa [State.moving, htasks] using hsame
    · intro other htask
      refine hinv.stops other ?_
      cases held <;> simp_all

theorem resume_eq_none (hhazard : hazardous s .resume = true) : resume s = none := by
  simp only [hazardous] at hhazard
  split at hhazard
  case h_1 profiler tasks htasks => simp [resume, htasks, Option.isNone_iff_eq_none.mp hhazard]
  case h_2 => cases hhazard

/-- What PHP code may do has a result, unless it is one of the hazards. -/
theorem perform_follows (hinv : Consistent s) (hpermitted : permitted s action = true)
    (hsafe : hazardous s action = false) :
    ∃ next, perform s action = some next ∧ Follows s next := by
  cases action with
  | newProfiler defaultMaxDepth now =>
      exact ⟨_, rfl, hinv.give (hinv.heap.profilerNew defaultMaxDepth now)⟩
  | sample profiler stack eventCount now =>
      simp only [permitted, Bool.and_eq_true] at hpermitted
      obtain ⟨zLog, hprofiler⟩ := Option.isSome_iff_exists.mp hpermitted.1
      obtain ⟨next, hnext, heffect⟩ := hinv.heap.changeLog
        (fun log => log.add stack eventCount now) hprofiler hpermitted.2
        fun log next hwf hadd => ⟨(Log.add_spec hwf hadd).1, .add hwf hadd⟩
      exact ⟨s.give next none, by simp [perform, hnext], hinv.give heffect⟩
  | setMaxDepth profiler depth =>
      obtain ⟨-, hclass⟩ := mem_vars hpermitted
      obtain ⟨zLog, hprofiler⟩ := Option.isSome_iff_exists.mp hclass
      obtain ⟨next, hnext, heffect⟩ := hinv.heap.changeLog
        (fun log => some (log.setMaxDepth depth)) hprofiler (by simp)
        (by rintro log next hwf ⟨⟩; exact Log.Grows.of_options hwf rfl rfl rfl rfl)
      exact ⟨s.give next none, by simp [perform, hnext], hinv.give heffect⟩
  | setPeriod profiler period =>
      obtain ⟨-, hclass⟩ := mem_vars hpermitted
      obtain ⟨zLog, hprofiler⟩ := Option.isSome_iff_exists.mp hclass
      obtain ⟨next, hnext, heffect⟩ := hinv.heap.changeLog
        (fun log => some { log with period := period }) hprofiler (by simp)
        (by rintro log next hwf ⟨⟩; exact Log.Grows.of_options hwf rfl rfl rfl rfl)
      exact ⟨s.give next none, by simp [perform, hnext], hinv.give heffect⟩
  | getLog profiler =>
      obtain ⟨-, hclass⟩ := mem_vars hpermitted
      obtain ⟨zLog, hprofiler⟩ := Option.isSome_iff_exists.mp hclass
      obtain ⟨log, reader, hvalue, hknown, -⟩ := hinv.heap.attachedLog hprofiler
      obtain ⟨next, hnext, heffect⟩ := hinv.heap.zvalCopy (some zLog)
        (by rintro e ⟨⟩; exact ⟨_, hvalue, hknown⟩)
      exact ⟨s.give next (some zLog), by simp [perform, hprofiler, hnext], hinv.give heffect⟩
  | flush profiler callable =>
      obtain ⟨-, hclass⟩ := mem_vars hpermitted
      obtain ⟨zLog, hprofiler⟩ := Option.isSome_iff_exists.mp hclass
      obtain ⟨next, hnext, heffect⟩ := hinv.heap.flush hprofiler
      cases callable with
      | true => exact ⟨s.give next (some zLog), by simp [perform, hnext], hinv.give heffect⟩
      | false =>
          have hmem := List.mem_cons_of_mem zLog (hinv.heap.profiler_mem hprofiler)
          obtain ⟨node, hnode⟩ := heffect.inv.value_of_mem hmem
          obtain ⟨kept, hkept, hcounted, -, -⟩ := heffect.inv.addRef hnode (.of_mem hmem)
          refine ⟨(s.give kept (some zLog)).enter kept [.stop profiler true],
            by simp [perform, hnext, hkept], .of_effect ?_ hinv.nodup ?_⟩
          · have hmiddle : (zLog :: s.vars ++ profiler :: s.tasks.flatMap Task.refs).Perm
                (profiler :: (zLog :: s.vars ++ s.tasks.flatMap Task.refs)) := List.perm_middle
            exact (heffect.trans hcounted).perm hmiddle.symm
          · intro other htask
            rcases List.mem_cons.mp htask with heq | hold
            · cases heq
              exact hclass
            · exact hinv.stops other hold
  | rotate profiler callable =>
      obtain ⟨zLog, hprofiler⟩ := Option.isSome_iff_exists.mp hpermitted
      obtain ⟨next, hnext, heffect⟩ := hinv.heap.flush hprofiler
      refine ⟨(s.give next (some zLog)).enter next
          (if callable then [] else [.stop profiler false]),
        by simp [perform, hnext], .of_effect ?_ ?_ ?_⟩
      · cases callable <;> exact heffect
      · cases callable <;> exact hinv.nodup
      · intro other htask
        refine hinv.stops other ?_
        cases callable <;> simpa [State.enter, State.give] using htask
  | getIterator log =>
      obtain ⟨hmem, hclass⟩ := mem_vars hpermitted
      obtain ⟨⟨backend, reader⟩, hlog⟩ := Option.isSome_iff_exists.mp hclass
      obtain ⟨next, iterator, hnext, heffect⟩ :=
        hinv.heap.getIterator (logAt_eq.mp hlog) (.of_mem (List.mem_append_left _ hmem))
      exact ⟨s.give next (some iterator), by simp [perform, hnext], hinv.give heffect⟩
  | current reader =>
      obtain ⟨hmem, hclass⟩ := mem_vars hpermitted
      obtain ⟨⟨target, position⟩, hreader⟩ := Option.isSome_iff_exists.mp hclass
      have hidle : reader ∉ s.moving := by simpa [hazardous] using hsafe
      obtain ⟨loaded, value, hloaded, heffect, hvalue⟩ :=
        hinv.heap.loadCurrent (List.mem_append_left _ hmem) hidle hreader
      obtain ⟨next, hnext, hcopied⟩ := heffect.inv.zvalCopy value hvalue
      exact ⟨s.give next value, by simp [perform, hloaded, hnext],
        hinv.give (heffect.trans hcopied)⟩
  | next reader =>
      obtain ⟨h, tasks, hmove, hfollows⟩ := hinv.move hpermitted hsafe .next
      exact ⟨_, by rw [perform, next, hmove, Option.map_some], hfollows⟩
  | rewind reader =>
      obtain ⟨h, tasks, hmove, hfollows⟩ := hinv.move hpermitted hsafe .rewind
      exact ⟨_, by rw [perform, rewind, hmove, Option.map_some], hfollows⟩
  | invalidateCurrent iterator =>
      obtain ⟨h, tasks, hmove, hfollows⟩ := hinv.move hpermitted hsafe .invalidateCurrent
      exact ⟨_, by rw [perform, invalidateCurrent, hmove, Option.map_some], hfollows⟩
  | offsetGet log offset =>
      obtain ⟨hmem, hclass⟩ := mem_vars hpermitted
      obtain ⟨⟨backend, reader⟩, hlog⟩ := Option.isSome_iff_exists.mp hclass
      obtain ⟨next, value, hnext, heffect⟩ :=
        hinv.heap.offsetGet (logAt_eq.mp hlog) (.of_mem (List.mem_append_left _ hmem)) offset
      exact ⟨s.give next value, by simp [perform, hnext], hinv.give heffect⟩
  | read entry =>
      obtain ⟨-, hclass⟩ := mem_vars hpermitted
      obtain ⟨⟨zLog, index⟩, hentry⟩ := Option.isSome_iff_exists.mp hclass
      obtain ⟨log, reader, stored, chain, hlog, hget, hchain, hlength⟩ :=
        hinv.heap.entry (entryAt_eq.mp hentry)
      have hdata := readEntry_eq (entryAt_eq.mp hentry) hlog hget hchain hlength
      exact ⟨s, by simp [perform, hdata], .of_effect (.refl hinv.heap) hinv.nodup hinv.stops⟩
  | copy id =>
      have hmem : id ∈ s.outside := List.mem_append_left _ (List.contains_iff_mem.mp hpermitted)
      obtain ⟨node, hnode⟩ := hinv.heap.value_of_mem hmem
      obtain ⟨next, hnext, heffect⟩ := hinv.heap.zvalCopy (some id)
        (by rintro e ⟨⟩; exact ⟨node, hnode, .of_mem hmem⟩)
      exact ⟨s.give next (some id), by simp [perform, hnext], hinv.give heffect⟩
  | drop id =>
      have hmem : id ∈ s.vars := List.contains_iff_mem.mp hpermitted
      have hperm := (List.perm_cons_erase hmem).append_right (s.tasks.flatMap Task.refs)
      obtain ⟨next, rest, hnext, hfollows⟩ := hinv.release hperm rfl (List.Subset.refl _)
      exact ⟨_, by simp [perform, hnext, State.enter], hfollows⟩
  | resume => exact resume_follows hinv hpermitted hsafe

/-- In the middle of a move the reader cannot be moved. -/
theorem Consistent.move_eq_none (hinv : Consistent s) {id : ℕ}
    (hpermitted : (s.vars.contains id && (readerAt s.heap id).isSome) = true)
    (hhazard : s.moving.contains id = true) (move : Move) : moveReader s.heap id move = none := by
  obtain ⟨-, hclass⟩ := mem_vars hpermitted
  obtain ⟨⟨target, reader⟩, hreader⟩ := Option.isSome_iff_exists.mp hclass
  exact hinv.heap.moveReader_eq_none (List.contains_iff_mem.mp hhazard) hreader move

/-- In each of the hazards freed memory is used. -/
theorem perform_eq_none (hinv : Consistent s) (hpermitted : permitted s action = true)
    (hhazard : hazardous s action = true) : perform s action = none := by
  cases action with
  | current reader =>
      obtain ⟨-, hclass⟩ := mem_vars hpermitted
      obtain ⟨⟨target, position⟩, hreader⟩ := Option.isSome_iff_exists.mp hclass
      obtain ⟨e, hloaded, hcopied⟩ :=
        hinv.heap.current_eq_none (List.contains_iff_mem.mp hhazard) hreader
      simp [perform, hloaded, hcopied]
  | next reader =>
      rw [perform, next, hinv.move_eq_none hpermitted hhazard, Option.map_none]
  | rewind reader =>
      rw [perform, rewind, hinv.move_eq_none hpermitted hhazard, Option.map_none]
  | invalidateCurrent iterator =>
      rw [perform, invalidateCurrent, hinv.move_eq_none hpermitted hhazard, Option.map_none]
  | resume => exact resume_eq_none hhazard
  | _ => cases hhazard

theorem step_follows (hinv : Consistent s) (hstep : step s action = some t) : Follows s t := by
  obtain ⟨hpermitted, hperform⟩ := Option.ite_none_right_eq_some.mp hstep
  cases hhazard : hazardous s action with
  | true => cases (perform_eq_none hinv hpermitted hhazard).symm.trans hperform
  | false =>
      obtain ⟨next, hnext, hfollows⟩ := perform_follows hinv hpermitted hhazard
      obtain rfl := Option.some.inj (hnext.symm.trans hperform)
      exact hfollows

theorem Follows.trans {u : State} (hfirst : Follows s t) (hsecond : Follows t u) : Follows s u :=
  ⟨hsecond.inv, hfirst.evolves.trans hsecond.evolves, hfirst.spared.trans hsecond.spared⟩

theorem run_follows (hinv : Consistent s) {actions : List Action}
    (hrun : Transition.run step s actions = some t) : Follows s t :=
  Transition.run_invariant (Follows s)
    (fun _ _ _ hfollows hstep => hfollows.trans (step_follows hfollows.inv hstep))
    (.of_effect (.refl hinv.heap) hinv.nodup hinv.stops) hrun

theorem reachable_consistent (hreach : Reachable s) : Consistent s := by
  refine Transition.Reachable.invariant Consistent ?_ ?_ hreach
  · rintro s rfl
    refine ⟨⟨Heap.Sound.empty, ?_, ?_, ⟨by simp [State.initial, State.moving], ?_, ?_⟩⟩,
      List.nodup_nil, by simp [State.initial]⟩
    · intro id node hvalue
      cases hvalue
    · intro id log reader hvalue
      cases hvalue
    · intro id node hvalue
      cases hvalue
    · intro id node reader hvalue
      cases hvalue
  · exact fun s action t hinv hstep => (step_follows hinv hstep).inv

/-- What the methods of an entry return does not depend on anything that happens
after the creation of the entry object: not on more samples, nor on a rotation, nor
on the end of the profiler and of all other references to the log. -/
theorem entry_unchanging (hreach : Reachable s) {actions : List Action}
    (hrun : Transition.run step s actions = some t) {id : ℕ} {data : EntryData}
    (hread : readEntry s.heap id = some data) (halive : (t.heap.value id).isSome) :
    readEntry t.heap id = some data := by
  have hinv := reachable_consistent hreach
  have hfollows := run_follows hinv hrun
  obtain ⟨⟨zLog, index⟩, hentry, -⟩ := Option.bind_eq_some_iff.mp hread
  have hvalue := entryAt_eq.mp hentry
  obtain ⟨log, reader, entry, chain, hlog, hget, hchain, hlength⟩ := hinv.heap.entry hvalue
  obtain ⟨node, hnode⟩ := Option.isSome_iff_exists.mp halive
  obtain ⟨old, hold, hgrows⟩ := hfollows.evolves.origin id node hnode (lt_fresh_of_value hvalue)
  obtain rfl := Option.some.inj (hvalue.symm.trans hold)
  cases hgrows
  -- the log of the entry is alive too, and it has only grown
  obtain ⟨later, position, -, -, hlater, -, -, -⟩ := hfollows.inv.heap.entry hnode
  obtain ⟨before, hbefore, hgrown⟩ :=
    hfollows.evolves.origin zLog _ hlater (lt_fresh_of_value hlog)
  obtain rfl := Option.some.inj (hlog.symm.trans hbefore)
  cases hgrown with
  | log hmore =>
      have hlonger : chain.length ≤ later.frames.length :=
        hlength.trans hmore.table.frames.length_le
      rw [readEntry_eq hnode hlater (hmore.getEntry hget)
        (hchain.mono hmore.table.getFrame) hlonger,
        hmore.epoch, ← hread]
      exact (readEntry_eq hvalue hlog hget hchain hlength).symm

/-- PHP code takes the object of an entry. -/
def takesEntry : List Action :=
  [.newProfiler 0 5, .sample 1 [Log.plainCall (Bytes.ofString "f") 3] 2 10, .getLog 1,
    .offsetGet 0 0]

/-- Then it lets go of everything else. -/
def dropsTheRest : List Action :=
  [.sample 1 [] 1 20, .flush 1 true, .drop 0, .drop 0, .drop 1]

theorem entry_unchanging_dropsTheRest :
    ∃ s t data, Transition.run step .initial takesEntry = some s ∧
      Transition.run step s dropsTheRest = some t ∧ t.vars = [2] ∧ (t.heap.value 1).isNone ∧
      data.timestamp = 5 ∧ data.eventCount = 2 ∧ data.trace.length = 1 ∧
      readEntry s.heap 2 = some data ∧ readEntry t.heap 2 = some data := by
  obtain ⟨s, hrun, hcheck⟩ := Transition.run_check step .initial takesEntry
    (fun s => (readEntry s.heap 2).any (fun data => data.timestamp == 5 && data.eventCount == 2 &&
        data.trace.length == 1) &&
      (Transition.run step s dropsTheRest).any fun t =>
        t.vars == [2] && (t.heap.value 1).isNone && (t.heap.value 2).isSome) (by decide)
  simp only [Bool.and_eq_true, Option.any_eq_true, beq_iff_eq] at hcheck
  obtain ⟨⟨data, hread, ⟨htime, hcount⟩, htrace⟩, t, hlater, ⟨hvars, hfreed⟩, halive⟩ := hcheck
  exact ⟨s, t, data, hrun, hlater, hvars, hfreed, htime, hcount, htrace, hread,
    entry_unchanging ⟨.initial, takesEntry, rfl, hrun⟩ hlater hread halive⟩

end Steps

end Excimer.ObjectStore
