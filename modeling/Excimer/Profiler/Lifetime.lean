import Excimer.Profiler.Rotation

/-!
The end of a profiler. The engine destroys an object in two calls, and PHP code
may run between them: the flush callback that `ExcimerProfiler_dtor` calls, and
destructors of other objects. The timer runs on until
`ExcimerProfiler_free_object`, so events may still be recorded then.

Which steps rotate the log can be told before they are made. A sample has reached
the callback if such a step came after it and no exception was pending at that
step.
-/

namespace Excimer.Profiler

/-- The steps that are going to rotate the log. -/
def rotates (p : Profiler) : Action → Bool
  | .test _ => (p.recording.bind fun id => p.logs[id]?).any p.full
  | .flush _ => true
  | _ => false

/-- The attached log has no entries. -/
def Drained (p : Profiler) : Prop := ∀ log ∈ p.logs[p.current]?, log.entries = []

instance (p : Profiler) : Decidable p.Drained :=
  inferInstanceAs (Decidable (∀ log ∈ p.logs[p.current]?, log.entries = []))

/-- How far the destruction of the object has come. The number is the depth of
the running PHP code to which `ExcimerProfiler_dtor` returns. -/
inductive Phase where
  | alive
  | destructing (depth : Nat)
  | freed
  deriving DecidableEq, Repr

/-- A profiler with what became of its logs. -/
structure Lifetime where
  profiler : Profiler
  phase : Phase
  /-- The logs that a flush callback was called with, in order. -/
  passed : List Nat
  /-- The logs for which `zend_call_function` returned at once because an
  exception was pending. -/
  dropped : List Nat

namespace Lifetime

def new (defaultMaxDepth : Int) (now : UInt64) : Lifetime where
  profiler := Profiler.new defaultMaxDepth now
  phase := .alive
  passed := []
  dropped := []

/-- The state after a step of the profiler. A flush has called its callback when
there is more running than before, and the callback does not run if an
exception is pending. -/
def after (s : Lifetime) (q : Profiler) (pending : Bool) : Lifetime :=
  if s.profiler.running.length < q.running.length then
    match q.running.head? with
    | some (.callback _ log) =>
        if pending then
          { s with
            profiler := { q with running := s.profiler.running }
            dropped := s.dropped ++ [log] }
        else { s with profiler := q, passed := s.passed ++ [log] }
    | _ => { s with profiler := q }
  else { s with profiler := q }

inductive Action where
  /-- A step of the profiler, with whether an exception is pending. -/
  | act (action : Profiler.Action) (pending : Bool)
  /-- `ExcimerProfiler_dtor` -/
  | dtor (callable pending : Bool)
  /-- `ExcimerProfiler_free_object` -/
  | freeObject

def step (s : Lifetime) : Action → Option Lifetime
  | .act action pending =>
      match s.phase, action with
      | .freed, .ret => (s.profiler.step .ret).map fun q => s.after q pending
      | .freed, _ => none
      | _, action => (s.profiler.step action).map fun q => s.after q pending
  | .dtor callable pending =>
      if s.phase = .alive ∧ s.profiler.recording = none then
        (s.profiler.logs[s.profiler.current]?).bind fun log =>
          let returns := Phase.destructing s.profiler.running.length
          if log.getSize = 0 then some { s with phase := returns }
          else
            (s.profiler.flush callable).map fun q => { s.after q pending with phase := returns }
      else none
  | .freeObject =>
      match s.phase with
      | .destructing depth =>
          if s.profiler.recording = none ∧ s.profiler.running.length ≤ depth then
            some { s with phase := .freed }
          else none
      | _ => none

/-- A callback is set before the first event, stays callable and is never
cleared. -/
def Served (s : Lifetime) : Action → Prop
  | .act (.event _ _ _) _ => s.profiler.callback.isSome
  | .act (.test callable) _ => callable
  | .act (.flush callable) _ => callable
  | .act .clearFlushCallback _ => False
  | .dtor callable _ => callable
  | _ => True

instance (s : Lifetime) (action : Action) : Decidable (Served s action) :=
  match action with
  | .act (.event _ _ _) _ => inferInstanceAs (Decidable (_ = true))
  | .act (.test _) _ => inferInstanceAs (Decidable (_ = true))
  | .act .ret _ => instDecidableTrue
  | .act (.flush _) _ => inferInstanceAs (Decidable (_ = true))
  | .act (.setFlushCallback _ _ _) _ => instDecidableTrue
  | .act .clearFlushCallback _ => instDecidableFalse
  | .act (.setMaxDepth _) _ => instDecidableTrue
  | .act (.setPeriod _) _ => instDecidableTrue
  | .dtor _ _ => inferInstanceAs (Decidable (_ = true))
  | .freeObject => instDecidableTrue

/-- The steps that record a sample. -/
def Action.records : Action → Bool
  | .act (.event _ _ _) _ => true
  | _ => false

/-- The steps that are going to rotate the log. `ExcimerProfiler_dtor` does it if
there is something in it. -/
def rotates (s : Lifetime) : Action → Bool
  | .act action _ => s.profiler.rotates action
  | .dtor _ _ => (s.profiler.logs[s.profiler.current]?).any fun log => log.getSize != 0
  | .freeObject => false

def Action.pending : Action → Bool
  | .act _ pending => pending
  | .dtor _ pending => pending
  | .freeObject => false

/-- No exception is pending when a log with entries is rotated out. -/
def Unimpeded (s : Lifetime) (action : Action) : Prop :=
  s.rotates action = true → action.pending = true → s.profiler.Drained

instance (s : Lifetime) (action : Action) : Decidable (Unimpeded s action) :=
  inferInstanceAs (Decidable
    (s.rotates action = true → action.pending = true → s.profiler.Drained))

/-- Every sample of a run is followed by a rotation. -/
def Flushed (s : Lifetime) (actions : List Action) : Prop :=
  Transition.Answered step (fun _ action => action.records = true)
    (fun s action => s.rotates action = true) s actions

instance (s : Lifetime) (actions : List Action) : Decidable (Flushed s actions) :=
  inferInstanceAs (Decidable (Transition.Answered step (fun _ action => action.records = true)
    (fun s action => s.rotates action = true) s actions))

/-- The samples in the order in which they were recorded. -/
def samples (actions : List Action) : List (Int × UInt64) :=
  actions.flatMap fun
    | .act action _ => arrivals [action]
    | _ => []

/-- No log with samples has been dropped. -/
def Harmless (s : Lifetime) : Prop :=
  ∀ id ∈ s.dropped, ∀ log ∈ s.profiler.logs[id]?, log.entries = []

/-- How often a log was passed or dropped. -/
def times (s : Lifetime) (id : Nat) : Nat := s.passed.count id + s.dropped.count id

structure Inv (s : Lifetime) : Prop where
  profiler : Profiler.Inv s.profiler
  silent : s.profiler.callback = none → s.profiler.Drained
  fresh : ∀ id, id ∉ s.profiler.detached → s.times id = 0
  once : ∀ id ∈ s.profiler.detached, ∀ log ∈ s.profiler.logs[id]?, log.entries ≠ [] →
    s.times id = 1

section After

variable {s : Lifetime} {q : Profiler} {pending : Bool}

/-- Up to the running code, the profiler is what the step made it. -/
theorem after_profiler (s : Lifetime) (q : Profiler) (pending : Bool) :
    ∃ running, (s.after q pending).profiler = { q with running := running } := by
  unfold after
  split
  · split
    · cases pending
      · exact ⟨q.running, rfl⟩
      · exact ⟨s.profiler.running, rfl⟩
    · exact ⟨q.running, rfl⟩
  · exact ⟨q.running, rfl⟩

/-- The log is passed or dropped when a callback is set. -/
theorem after_times_flush {p : Profiler} (hrunning : p.running = s.profiler.running)
    (hrun : p.flush true = some q) (id : Nat) :
    (s.after q pending).times id =
      s.times id + if p.callback.isSome ∧ id = p.current then 1 else 0 := by
  obtain ⟨log, -, rfl⟩ := Option.map_eq_some_iff.mp hrun
  cases hcallback : p.callback with
  | none => simp [after, hrunning, times]
  | some callback =>
      by_cases hid : id = p.current
      · subst hid
        cases pending <;> simp [after, hrunning, times] <;> omega
      · have hne : ¬p.current = id := fun heq => hid heq.symm
        cases pending <;> simp [after, hrunning, times, hid, hne]

@[simp] theorem after_phase (s : Lifetime) (q : Profiler) (pending : Bool) :
    (s.after q pending).phase = s.phase := by
  unfold after
  repeat' split
  all_goals rfl

theorem after_dropped_flush {p : Profiler} (hrunning : p.running = s.profiler.running)
    (hrun : p.flush true = some q) :
    (s.after q pending).dropped =
      s.dropped ++ if pending = true ∧ p.callback.isSome then [p.current] else [] := by
  obtain ⟨log, -, rfl⟩ := Option.map_eq_some_iff.mp hrun
  cases hcallback : p.callback with
  | none => simp [after, hrunning]
  | some callback => cases pending <;> simp [after, hrunning]

end After

section Steps

variable {s t : Lifetime} {p q : Profiler} {before : List Log} {log : Log}

/-- A step of the profiler is a flush, or it detaches nothing and starts nothing. -/
theorem step_plain_or_flush {action : Profiler.Action} (hstep : p.step action = some q) :
    (p.rotates action = false ∧ q.detached = p.detached ∧ q.running.length ≤ p.running.length ∧
      (q.callback = none → p.callback = none ∨ action = .clearFlushCallback)) ∨
    p.rotates action = true ∧ ∃ callable, (action = .test callable ∨ action = .flush callable) ∧
      Profiler.flush { p with recording := none } callable = some q := by
  cases step_moves hstep with
  | event => exact Or.inl ⟨rfl, rfl, Nat.le_refl _, Or.inl⟩
  | keep hrecording hlog hroom =>
      refine Or.inl ⟨?_, rfl, Nat.le_refl _, Or.inl⟩
      simp [Profiler.rotates, hrecording, hlog, hroom]
  | @rotate callable _ _ _ hrecording hlog hfull hflush =>
      refine Or.inr ⟨?_, callable, Or.inl rfl, hflush⟩
      simp [Profiler.rotates, hrecording, hlog, hfull]
  | @flush callable _ hidle hflush =>
      have hsame : { p with recording := none } = p := by rw [← hidle]
      exact Or.inr ⟨rfl, callable, Or.inr rfl, hsame.symm ▸ hflush⟩
  | ret hidle hrunning =>
      refine Or.inl ⟨rfl, rfl, ?_, Or.inl⟩
      rw [hrunning]
      exact Nat.le_succ _
  | rejected => exact Or.inl ⟨rfl, rfl, Nat.le_refl _, Or.inl⟩
  | setFlushCallback => exact Or.inl ⟨rfl, rfl, Nat.le_refl _, nofun⟩
  | clearFlushCallback => exact Or.inl ⟨rfl, rfl, Nat.le_refl _, fun _ => Or.inr rfl⟩
  | setMaxDepth => exact Or.inl ⟨rfl, rfl, Nat.le_refl _, Or.inl⟩
  | setPeriod => exact Or.inl ⟨rfl, rfl, Nat.le_refl _, Or.inl⟩

theorem withRunning_inv (hinv : Profiler.Inv q) (running : List Running) :
    Profiler.Inv { q with running := running } := by
  obtain ⟨⟨before, log, hat⟩, hrecording, hsound⟩ := hinv
  exact ⟨⟨before, log, hat.logs, hat.current, hat.detached⟩, hrecording, hsound⟩

theorem Inv.plain (hinv : Inv s) (hprofiler : Profiler.Inv t.profiler)
    (hdetached : t.profiler.detached = s.profiler.detached)
    (hlogs : ∀ id ∈ s.profiler.detached, t.profiler.logs[id]? = s.profiler.logs[id]?)
    (hsilent : t.profiler.callback = none → t.profiler.Drained)
    (htimes : ∀ id, t.times id = s.times id) : Inv t where
  profiler := hprofiler
  silent := hsilent
  fresh := by
    intro id hid
    rw [htimes]
    exact hinv.fresh id (hdetached ▸ hid)
  once := by
    intro id hid log hlog hentries
    rw [hdetached] at hid
    rw [htimes]
    exact hinv.once id hid log (hlogs id hid ▸ hlog) hentries

/-- A log with entries that is rotated out has been passed or dropped. -/
theorem Inv.rotated (hinv : Inv s) (hat : s.profiler.At before log)
    (hprofiler : Profiler.Inv t.profiler)
    (hnext : t.profiler.At (before ++ [log]) (replacement log))
    (htimes : ∀ id, t.times id =
      s.times id + if s.profiler.callback.isSome ∧ id = s.profiler.current then 1 else 0) :
    Inv t := by
  have hlast := hat.current_attached
  have hdetached : ∀ id, id ∈ t.profiler.detached ↔
      id ∈ s.profiler.detached ∨ id = s.profiler.current := by
    intro id
    rw [hnext.detached, hat.detached, hat.current, List.length_append, List.length_singleton,
      List.mem_range, List.mem_range]
    omega
  refine ⟨hprofiler, ?_, ?_, ?_⟩
  · rintro - next hattached
    obtain rfl := hnext.log_unique hattached
    rfl
  · intro id hid
    rw [hdetached, not_or] at hid
    rw [htimes, hinv.fresh id hid.1, if_neg fun h => hid.2 h.2]
  · intro id hid found hfound hentries
    rw [htimes]
    rcases (hdetached id).mp hid with hold | rfl
    · have hne : id ≠ s.profiler.current := ne_of_mem_of_not_mem hold hlast
      have hkept : s.profiler.logs[id]? = some found := by
        rw [hat.detached, List.mem_range] at hold
        have hfound : t.profiler.logs[id]? = some found := hfound
        rw [hnext.logs, List.append_assoc, List.getElem?_append_left hold] at hfound
        rw [hat.logs, List.getElem?_append_left hold, hfound]
      rw [hinv.once id hold found hkept hentries, if_neg fun h => hne h.2]
    · obtain rfl := Option.some.inj ((hnext.old_eq hat).symm.trans hfound)
      have hcallback : s.profiler.callback.isSome := by
        by_contra hnone
        exact hentries (hinv.silent (by simpa using hnone) log hat.log_eq)
      rw [hinv.fresh _ hlast, if_pos ⟨hcallback, rfl⟩]

theorem step_act {action : Profiler.Action} {pending : Bool}
    (hstep : step s (.act action pending) = some t) :
    ∃ q, s.profiler.step action = some q ∧ t = s.after q pending := by
  have hmap : (s.profiler.step action).map (fun q => s.after q pending) = some t := by
    simp only [step] at hstep
    split at hstep
    · exact hstep
    · cases hstep
    · exact hstep
  obtain ⟨q, hq, rfl⟩ := Option.map_eq_some_iff.mp hmap
  exact ⟨q, hq, rfl⟩

theorem flush_inv (hinv : Inv s) (hat : s.profiler.At before log)
    (hrun : Profiler.flush { s.profiler with recording := none } true = some q) (pending : Bool) :
    Inv (s.after q pending) ∧
      stamps (s.after q pending).profiler.logs = stamps s.profiler.logs := by
  have hidle := hat.returned
  obtain ⟨hnext, hrecording, -⟩ := flush_at hidle hrun
  have heffect : Effect { s.profiler with recording := none } q before log [] :=
    .rotate (Or.inl rfl) hnext hrecording
  have hidleInv : Profiler.Inv { s.profiler with recording := none } :=
    ⟨⟨before, log, hidle⟩, by simp, hinv.profiler.sound⟩
  obtain ⟨running, hprofiler⟩ := after_profiler s q pending
  constructor
  · apply hinv.rotated hat
    · rw [hprofiler]
      exact withRunning_inv (heffect.inv hidleInv hidle) running
    · rw [hprofiler]
      exact ⟨hnext.logs, hnext.current, hnext.detached⟩
    · intro id
      exact after_times_flush (p := { s.profiler with recording := none }) rfl hrun id
  · have hstamps := heffect.stamps hidleInv hidle
    rw [List.append_nil] at hstamps
    rw [hprofiler]
    exact hstamps

theorem plain_inv (hinv : Inv s) {action : Profiler.Action} {pending : Bool}
    (hserved : Served s (.act action pending)) (hq : s.profiler.step action = some q)
    (hdetached : q.detached = s.profiler.detached)
    (hrunning : q.running.length ≤ s.profiler.running.length)
    (hcallback : q.callback = none → s.profiler.callback = none ∨ action = .clearFlushCallback) :
    Inv (s.after q pending) := by
  obtain ⟨before, log, hat, heffect⟩ := hinv.profiler.effect hq
  have hafter : s.after q pending = { s with profiler := q } := by
    rw [after, if_neg (Nat.not_lt.mpr hrunning)]
  rw [hafter]
  refine hinv.plain (heffect.inv hinv.profiler hat) hdetached ?_ ?_ fun _ => rfl
  · intro id hid
    obtain ⟨-, old, hold, hkept⟩ := heffect.detached hat hid
    exact hkept.trans hold.symm
  · intro hnone next hnext
    have hsilent : s.profiler.callback = none := by
      rcases hcallback hnone with hsame | rfl
      · exact hsame
      · exact absurd hserved id
    have hempty := hinv.silent hsilent log hat.log_eq
    have hnoEvent : arrivals [action] = [] := by
      cases action with
      | event stack eventCount now => simp [Served, hsilent] at hserved
      | _ => rfl
    rw [hnoEvent] at heffect
    have hnext : q.logs[q.current]? = some next := hnext
    cases heffect with
    | keep _ _ hsame _ =>
        obtain rfl := hsame.log_unique hnext
        exact hempty
    | rotate _ hsame _ =>
        obtain rfl := hsame.log_unique hnext
        rfl
    | adjust _ hchanged hsame _ =>
        obtain rfl := hsame.log_unique hnext
        have hentries := congrArg Log.entries hchanged
        exact hentries.trans hempty

theorem step_inv (hinv : Inv s) {action : Action} (hserved : Served s action)
    (hstep : step s action = some t) :
    Inv t ∧ stamps t.profiler.logs = stamps s.profiler.logs ++ samples [action] := by
  cases action with
  | act action pending =>
      obtain ⟨q, hq, rfl⟩ := step_act hstep
      obtain ⟨before, log, hat, heffect⟩ := hinv.profiler.effect hq
      have hstamps : stamps (s.after q pending).profiler.logs =
          stamps s.profiler.logs ++ samples [.act action pending] := by
        obtain ⟨running, hprofiler⟩ := after_profiler s q pending
        rw [hprofiler, heffect.stamps hinv.profiler hat]
        simp [samples]
      refine ⟨?_, hstamps⟩
      rcases step_plain_or_flush hq with
        ⟨-, hdetached, hrunning, hcallback⟩ | ⟨-, callable, hflush, hrun⟩
      · exact plain_inv hinv hserved hq hdetached hrunning hcallback
      · have hcallable : callable = true := by
          rcases hflush with rfl | rfl
          · exact hserved
          · exact hserved
        rw [hcallable] at hrun
        exact (flush_inv hinv hat hrun pending).1
  | dtor callable pending =>
      simp only [step] at hstep
      obtain ⟨⟨-, hidle⟩, hstep⟩ := Option.ite_none_right_eq_some.mp hstep
      obtain ⟨before, log, hat⟩ := hinv.profiler.logs_at
      rw [hat.log_eq, Option.bind_some] at hstep
      have hserved : callable = true := hserved
      subst hserved
      split at hstep
      · obtain rfl := Option.some.inj hstep
        exact ⟨⟨hinv.profiler, hinv.silent, hinv.fresh, hinv.once⟩, by simp [samples]⟩
      · obtain ⟨q, hq, rfl⟩ := Option.map_eq_some_iff.mp hstep
        have hsame : { s.profiler with recording := none } = s.profiler := by rw [← hidle]
        rw [← hsame] at hq
        obtain ⟨hafter, hstamps⟩ := flush_inv hinv hat hq pending
        refine ⟨⟨hafter.profiler, hafter.silent, hafter.fresh, hafter.once⟩, ?_⟩
        rw [hstamps]
        simp [samples]
  | freeObject =>
      simp only [step] at hstep
      split at hstep
      · obtain ⟨-, hnext⟩ := Option.ite_none_right_eq_some.mp hstep
        obtain rfl := Option.some.inj hnext
        exact ⟨⟨hinv.profiler, hinv.silent, hinv.fresh, hinv.once⟩, by simp [samples]⟩
      · cases hstep

theorem drained_iff (hat : p.At before log) : p.Drained ↔ log.entries = [] := by
  unfold Drained
  rw [hat.log_eq]
  simp

/-- An event puts something into the attached log, and a rotation attaches an empty
one. -/
theorem profiler_drained (hinv : Profiler.Inv p) {action : Profiler.Action}
    (hstep : p.step action = some q) :
    q.Drained ↔ arrivals [action] = [] ∧ (p.Drained ∨ p.rotates action = true) := by
  obtain ⟨before, log, hat, heffect⟩ := hinv.effect hstep
  rw [drained_iff hat]
  rcases step_plain_or_flush hstep with
    ⟨hrotates, hdetached, -, -⟩ | ⟨hrotates, callable, haction, hflush⟩
  · simp only [hrotates, Bool.false_eq_true, or_false]
    generalize arrivals [action] = added at heffect
    cases heffect with
    | record _ hadd hnext _ =>
        obtain ⟨-, entry, hentries, -⟩ := (hinv.sound log hat.mem).add hadd
        simp [drained_iff hnext, hentries]
    | keep _ _ hnext _ => simp [drained_iff hnext]
    | rotate _ hnext _ =>
        have hlength := congrArg List.length hdetached
        rw [hnext.detached, hat.detached] at hlength
        simp at hlength
    | adjust _ hsame hnext _ =>
        have hentries := congrArg Log.entries hsame
        simp [drained_iff hnext, hentries]
  · have harrivals : arrivals [action] = [] := by
      rcases haction with rfl | rfl
      · rfl
      · rfl
    obtain ⟨hnext, -⟩ := flush_at hat.returned hflush
    have hempty : (replacement log).entries = [] := rfl
    simp [drained_iff hnext, hempty, harrivals, hrotates]

theorem step_drained (hinv : Inv s) {action : Action} (hstep : step s action = some t) :
    t.profiler.Drained ↔
      ¬action.records = true ∧ (s.profiler.Drained ∨ s.rotates action = true) := by
  cases action with
  | act action pending =>
      obtain ⟨q, hq, rfl⟩ := step_act hstep
      obtain ⟨running, hprofiler⟩ := after_profiler s q pending
      have hsame : (s.after q pending).profiler.Drained ↔ q.Drained := by
        rw [hprofiler]
        exact Iff.rfl
      have hrecords : ¬(Action.act action pending).records = true ↔ arrivals [action] = [] := by
        cases action <;> simp [Action.records, arrivals]
      rw [hsame, hrecords]
      exact profiler_drained hinv.profiler hq
  | dtor callable pending =>
      simp only [step] at hstep
      obtain ⟨-, hstep⟩ := Option.ite_none_right_eq_some.mp hstep
      obtain ⟨before, log, hat⟩ := hinv.profiler.logs_at
      rw [hat.log_eq, Option.bind_some] at hstep
      simp only [Action.records, rotates, hat.log_eq, drained_iff hat]
      split at hstep
      case isTrue hsize =>
        obtain rfl := Option.some.inj hstep
        have hempty : log.entries = [] := List.length_eq_zero_iff.mp hsize
        simp [drained_iff hat, hempty]
      case isFalse hsize =>
        obtain ⟨q, hq, rfl⟩ := Option.map_eq_some_iff.mp hstep
        obtain ⟨running, hprofiler⟩ := after_profiler s q pending
        have hdrained : (s.after q pending).profiler.Drained := by
          rw [hprofiler]
          exact (drained_iff (flush_at hat hq).1).mpr rfl
        simpa [hsize] using hdrained
  | freeObject =>
      simp only [step] at hstep
      split at hstep
      · obtain ⟨-, hnext⟩ := Option.ite_none_right_eq_some.mp hstep
        obtain rfl := Option.some.inj hnext
        simp [Action.records, rotates]
      · cases hstep

theorem Inv.mem_detached (hinv : Inv s) {id : Nat} (hid : id ∈ s.dropped) :
    id ∈ s.profiler.detached := by
  by_contra hout
  have hnone := hinv.fresh id hout
  have hdropped := List.count_pos_iff.mpr hid
  rw [times] at hnone
  omega

theorem Inv.harmless_iff (hinv : Inv s) (hdropped : t.dropped = s.dropped)
    (hlogs : ∀ id ∈ s.profiler.detached, t.profiler.logs[id]? = s.profiler.logs[id]?) :
    t.Harmless ↔ s.Harmless := by
  unfold Harmless
  rw [hdropped]
  apply forall₂_congr
  intro id hid
  rw [hlogs id (hinv.mem_detached hid)]

/-- What is dropped in a rotation is the log that was attached. -/
theorem Inv.harmless_rotated (hinv : Inv s) (hat : s.profiler.At before log) {pending : Bool}
    (hrun : Profiler.flush { s.profiler with recording := none } true = some q) :
    (s.after q pending).Harmless ↔ s.Harmless ∧ (pending = true → s.profiler.Drained) := by
  obtain ⟨hnext, -⟩ := flush_at hat.returned hrun
  obtain ⟨running, hprofiler⟩ := after_profiler s q pending
  have hlogs : (s.after q pending).profiler.logs = q.logs := by rw [hprofiler]
  have hkept : ∀ id ∈ s.dropped, q.logs[id]? = s.profiler.logs[id]? := by
    intro id hid
    have hold := hinv.mem_detached hid
    rw [hat.detached, List.mem_range] at hold
    rw [hnext.logs, List.append_assoc, hat.logs, List.getElem?_append_left hold,
      List.getElem?_append_left hold]
  have hlast : q.logs[s.profiler.current]? = some log := hnext.old_eq hat
  have hafter : (s.after q pending).Harmless ↔
      ∀ id ∈ s.dropped ++ if pending = true ∧ s.profiler.callback.isSome then
        [s.profiler.current] else [], ∀ log ∈ q.logs[id]?, log.entries = [] := by
    unfold Harmless
    rw [after_dropped_flush (p := { s.profiler with recording := none }) rfl hrun, hlogs]
  have hold : (∀ id ∈ s.dropped, ∀ log ∈ q.logs[id]?, log.entries = []) ↔ s.Harmless := by
    apply forall₂_congr
    intro id hid
    rw [hkept id hid]
  rw [hafter]
  by_cases hlost : pending = true ∧ s.profiler.callback.isSome
  · rw [if_pos hlost, List.forall_mem_append, hold, List.forall_mem_singleton, hlast]
    simp [hlost.1, drained_iff hat]
  · rw [if_neg hlost, List.append_nil, hold, iff_self_and]
    intro _ hpending
    apply hinv.silent
    simpa [hpending] using hlost

theorem step_harmless (hinv : Inv s) {action : Action} (hserved : Served s action)
    (hstep : step s action = some t) : t.Harmless ↔ s.Harmless ∧ Unimpeded s action := by
  cases action with
  | act action pending =>
      obtain ⟨q, hq, rfl⟩ := step_act hstep
      obtain ⟨before, log, hat, heffect⟩ := hinv.profiler.effect hq
      rcases step_plain_or_flush hq with
        ⟨hrotates, -, hrunning, -⟩ | ⟨hrotates, callable, haction, hrun⟩
      · have hafter : s.after q pending = { s with profiler := q } := by
          rw [after, if_neg (Nat.not_lt.mpr hrunning)]
        have hkept : ∀ id ∈ s.profiler.detached, q.logs[id]? = s.profiler.logs[id]? := by
          intro id hid
          obtain ⟨-, old, hold, hkept⟩ := heffect.detached hat hid
          exact hkept.trans hold.symm
        have hsame : Harmless { s with profiler := q } ↔ s.Harmless := hinv.harmless_iff rfl hkept
        rw [hafter, hsame]
        simp [Unimpeded, rotates, hrotates]
      · have hcallable : callable = true := by
          rcases haction with rfl | rfl
          · exact hserved
          · exact hserved
        rw [hcallable] at hrun
        rw [hinv.harmless_rotated hat hrun]
        simp [Unimpeded, rotates, hrotates, Action.pending]
  | dtor callable pending =>
      simp only [step] at hstep
      obtain ⟨⟨-, hidle⟩, hstep⟩ := Option.ite_none_right_eq_some.mp hstep
      obtain ⟨before, log, hat⟩ := hinv.profiler.logs_at
      rw [hat.log_eq, Option.bind_some] at hstep
      have hserved : callable = true := hserved
      subst hserved
      split at hstep
      case isTrue hsize =>
        obtain rfl := Option.some.inj hstep
        simp [Unimpeded, rotates, hat.log_eq, hsize, Harmless]
      case isFalse hsize =>
        obtain ⟨q, hq, rfl⟩ := Option.map_eq_some_iff.mp hstep
        have hsame : { s.profiler with recording := none } = s.profiler := by rw [← hidle]
        rw [← hsame] at hq
        refine (hinv.harmless_rotated hat hq).trans ?_
        simp [Unimpeded, rotates, hat.log_eq, hsize, Action.pending]
  | freeObject =>
      simp only [step] at hstep
      split at hstep
      · obtain ⟨-, hnext⟩ := Option.ite_none_right_eq_some.mp hstep
        obtain rfl := Option.some.inj hnext
        simp [Unimpeded, rotates, Harmless]
      · cases hstep

end Steps

theorem new_inv (defaultMaxDepth : Int) (now : UInt64) : Inv (new defaultMaxDepth now) where
  profiler := Profiler.new_inv defaultMaxDepth now
  silent := by
    rintro - log hlog
    obtain rfl := (new_at defaultMaxDepth now).log_unique hlog
    rfl
  fresh := fun _ _ => rfl
  once := by
    intro id hid
    cases hid

theorem run_samples {s t : Lifetime} {actions : List Action} (hinv : Inv s)
    (hserved : Transition.Along step Served s actions)
    (hrun : Transition.run step s actions = some t) :
    Inv t ∧ stamps t.profiler.logs = stamps s.profiler.logs ++ samples actions := by
  induction actions generalizing s with
  | nil =>
      obtain rfl := Option.some.inj hrun
      exact ⟨hinv, by simp [samples]⟩
  | cons action rest ih =>
      obtain ⟨next, hstep, hrest⟩ := Transition.run_cons hrun
      obtain ⟨hnext, hstamps⟩ := step_inv hinv hserved.1 hstep
      obtain ⟨hfinal, hall⟩ := ih hnext (hserved.2 next hstep) hrest
      refine ⟨hfinal, ?_⟩
      rw [hall, hstamps, List.append_assoc, samples, samples, samples, ← List.flatMap_append,
        List.singleton_append]

/-- Every log with samples has been passed to the callback exactly once. -/
def Delivered (s : Lifetime) : Prop :=
  ∀ id log, s.profiler.logs[id]? = some log → log.entries ≠ [] → s.passed.count id = 1

theorem Inv.delivered_iff {s : Lifetime} (hinv : Inv s) :
    Delivered s ↔ s.profiler.Drained ∧ s.Harmless := by
  obtain ⟨before, attached, hat⟩ := hinv.profiler.logs_at
  have hlast := hat.current_attached
  constructor
  · intro hdelivered
    constructor
    · intro log hlog
      by_contra hentries
      have hone := hdelivered _ log hlog hentries
      have hnone := hinv.fresh _ hlast
      rw [times] at hnone
      omega
    · intro id hid log hlog
      by_contra hentries
      have hone := hdelivered id log hlog hentries
      have hdropped := List.count_pos_iff.mpr hid
      have honce := hinv.once id (hinv.mem_detached hid) log hlog hentries
      rw [times] at honce
      omega
  · rintro ⟨hattached, hdropped⟩ id log hlog hentries
    have hlt := (List.getElem?_eq_some_iff.mp hlog).1
    rw [hat.logs, List.length_append, List.length_singleton] at hlt
    have hne : id ≠ s.profiler.current := by
      rintro rfl
      exact hentries (hattached log hlog)
    have hdetached : id ∈ s.profiler.detached := by
      rw [hat.detached, List.mem_range]
      rw [hat.current] at hne
      omega
    have honce := hinv.once id hdetached log hlog hentries
    have hkept : s.dropped.count id = 0 := by
      rw [List.count_eq_zero]
      intro hid
      exact hentries (hdropped id hid log hlog)
    rw [times] at honce
    omega

section Runs

variable {s t : Lifetime} {actions : List Action}

theorem Inv.run_drained_iff (hinv : Inv s) (hserved : Transition.Along step Served s actions)
    (hdrained : s.profiler.Drained) (hrun : Transition.run step s actions = some t) :
    t.profiler.Drained ↔ Flushed s actions := by
  rw [hserved.settled_iff Inv (fun s => s.profiler.Drained) ?_ hinv hrun]
  · exact and_iff_left (Or.inl hdrained)
  · intro s action next hinv hserved hstep
    exact ⟨(step_inv hinv hserved hstep).1, step_drained hinv hstep⟩

theorem Inv.run_harmless_iff (hinv : Inv s) (hserved : Transition.Along step Served s actions)
    (hrun : Transition.run step s actions = some t) :
    t.Harmless ↔ s.Harmless ∧ Transition.Along step Unimpeded s actions := by
  apply hserved.kept_iff Inv Harmless ?_ hinv hrun
  intro s action next hinv hserved hstep
  exact ⟨(step_inv hinv hserved hstep).1, step_harmless hinv hserved hstep⟩

/-- `ExcimerProfiler_dtor` leaves nothing in the attached log. -/
theorem dtor_drained {callable pending : Bool} (hinv : Inv s)
    (hstep : step s (.dtor callable pending) = some t) : t.profiler.Drained := by
  obtain ⟨before, log, hat⟩ := hinv.profiler.logs_at
  rw [step_drained hinv hstep, drained_iff hat]
  simp only [Action.records, rotates, hat.log_eq, Log.getSize, Option.any_some, bne_iff_ne]
  refine ⟨by simp, ?_⟩
  rw [ne_eq, List.length_eq_zero_iff]
  exact Decidable.em _

/-- An object is not freed before `ExcimerProfiler_dtor` has been called. -/
theorem dtor_of_freed (halive : s.phase = .alive)
    (hrun : Transition.run step s actions = some t) (hfreed : t.phase = .freed) :
    ∃ before callable pending late, actions = before ++ .dtor callable pending :: late := by
  induction actions generalizing s with
  | nil =>
      obtain rfl := Option.some.inj hrun
      rw [halive] at hfreed
      cases hfreed
  | cons action rest ih =>
      obtain ⟨next, hstep, hrest⟩ := Transition.run_cons hrun
      cases action with
      | act action pending =>
          obtain ⟨q, -, rfl⟩ := step_act hstep
          obtain ⟨before, callable, pending', late, rfl⟩ := ih (by simp [after_phase, halive]) hrest
          exact ⟨.act action pending :: before, callable, pending', late, rfl⟩
      | dtor callable pending => exact ⟨[], callable, pending, rest, rfl⟩
      | freeObject => simp [step, halive] at hstep

theorem flushed_of_quiet (hquiet : ∀ action ∈ actions, action.records = false) :
    Flushed s actions :=
  Transition.Answered.of_no_request fun action hmem _ => by simp [hquiet action hmem]

end Runs

/-- The samples of a profiler are the entries of its logs. All of them have reached
the callback exactly if every sample was followed by a rotation and no exception
was pending when a log with samples was rotated out. When the object has been
freed, only the samples after the call of `ExcimerProfiler_dtor` are in question,
if there are any: it leaves nothing in the attached log. -/
theorem samples_delivered_iff {defaultMaxDepth : Int} {now : UInt64} {actions : List Action}
    {s : Lifetime} (hrun : Transition.run step (new defaultMaxDepth now) actions = some s)
    (hserved : Transition.Along step Served (new defaultMaxDepth now) actions) :
    stamps s.profiler.logs = samples actions ∧
      (Delivered s ↔ Flushed (new defaultMaxDepth now) actions ∧
        Transition.Along step Unimpeded (new defaultMaxDepth now) actions) ∧
      (s.phase = .freed → ∃ before callable pending late mid,
        actions = before ++ .dtor callable pending :: late ∧
        Transition.run step (new defaultMaxDepth now) (before ++ [.dtor callable pending]) =
          some mid ∧
        mid.profiler.Drained ∧
        (Delivered s ↔ Flushed mid late ∧
          Transition.Along step Unimpeded (new defaultMaxDepth now) actions) ∧
        ((∀ action ∈ late, action.records = false) → Flushed mid late)) := by
  have hnew := new_inv defaultMaxDepth now
  have hempty : (new defaultMaxDepth now).profiler.Drained := hnew.silent rfl
  have hnone : (new defaultMaxDepth now).Harmless := fun id hid => by cases hid
  have hinv := run_samples hnew hserved hrun
  have hharmless : s.Harmless ↔
      Transition.Along step Unimpeded (new defaultMaxDepth now) actions := by
    rw [hnew.run_harmless_iff hserved hrun]
    exact and_iff_right hnone
  refine ⟨hinv.2, ?_, ?_⟩
  · rw [hinv.1.delivered_iff, hnew.run_drained_iff hserved hempty hrun, hharmless]
  · intro hfreed
    obtain ⟨before, callable, pending, late, rfl⟩ := dtor_of_freed rfl hrun hfreed
    have hsplit : before ++ .dtor callable pending :: late =
        (before ++ [.dtor callable pending]) ++ late := by simp
    rw [hsplit, Transition.run_append] at hrun
    obtain ⟨mid, hmid, hlate⟩ := Option.bind_eq_some_iff.mp hrun
    obtain ⟨first, hfirst, hdtor⟩ := Transition.run_last hmid
    rw [hsplit, Transition.Along.append_iff hmid] at hserved
    have hfirstServed := ((Transition.Along.append_iff hfirst _).mp hserved.1).1
    have hdrained := dtor_drained (run_samples hnew hfirstServed hfirst).1 hdtor
    have hmidInv := (run_samples hnew hserved.1 hmid).1
    refine ⟨before, callable, pending, late, mid, rfl, hmid, hdrained, ?_, flushed_of_quiet⟩
    rw [hinv.1.delivered_iff, hmidInv.run_drained_iff hserved.2 hdrained hlate, hharmless]

/-- Two samples, of which the first fills a log, and a quiet end. -/
def quietEnd : List Action :=
  let event := Action.act (.event [Log.plainCall (Bytes.ofString "f") 3] 1 10) false
  [.act (.setFlushCallback 7 true 1) false, event, .act (.test true) false, .act .ret false,
   .act (.setFlushCallback 7 true 5) false, event, .act (.test true) false, .dtor true false,
   .act .ret false, .freeObject]

theorem samples_delivered_iff_quietEnd :
    ∃ s, Transition.run step (new 0 5) quietEnd = some s ∧
      Transition.Along step Served (new 0 5) quietEnd ∧ s.phase = .freed ∧ s.passed = [0, 1] ∧
      stamps s.profiler.logs = [(1, 10), (1, 10)] ∧ Delivered s := by
  obtain ⟨s, hrun, hcheck⟩ := Transition.run_check step (new 0 5) quietEnd
    (fun s => s.phase == .freed && s.passed == [0, 1]) (by decide)
  simp only [Bool.and_eq_true, beq_iff_eq] at hcheck
  have hserved : Transition.Along step Served (new 0 5) quietEnd := by decide
  obtain ⟨hstamps, hiff, -⟩ := samples_delivered_iff hrun hserved
  exact ⟨s, hrun, hserved, hcheck.1, hcheck.2, hstamps, hiff.mpr ⟨by decide, by decide⟩⟩

/-- The timer fires while the flush callback of the destructor runs. -/
def lateEvent : List Action :=
  let stack := [Log.plainCall (Bytes.ofString "f") 3]
  [.act (.setFlushCallback 7 true 100) false, .act (.event stack 1 10) false,
   .act (.test true) false, .dtor true false, .act (.event stack 1 20) false,
   .act (.test true) false, .act .ret false, .freeObject]

theorem lateEvent_lost :
    ∃ s log, Transition.run step (new 0 5) lateEvent = some s ∧
      Transition.Along step Served (new 0 5) lateEvent ∧ s.phase = .freed ∧
      s.profiler.logs[1]? = some log ∧
      log.entries.map (fun entry => (entry.eventCount, entry.timestamp)) = [(1, 20)] ∧
      s.passed = [0] ∧ ¬Delivered s := by
  obtain ⟨s, hrun, hcheck⟩ := Transition.run_check step (new 0 5) lateEvent
    (fun s => s.phase == .freed && s.passed == [0] && (s.profiler.logs[1]?).any fun log =>
      log.entries.map (fun entry => (entry.eventCount, entry.timestamp)) == [(1, 20)]) (by decide)
  simp only [Bool.and_eq_true, beq_iff_eq, Option.any_eq_true] at hcheck
  obtain ⟨⟨hphase, hpassed⟩, log, hlog, hentries⟩ := hcheck
  refine ⟨s, log, hrun, by decide, hphase, hlog, hentries, hpassed, ?_⟩
  intro hdelivered
  have hne : log.entries ≠ [] := by
    intro hempty
    rw [hempty] at hentries
    cases hentries
  have hone := hdelivered 1 log hlog hne
  rw [hpassed] at hone
  cases hone

end Lifetime

end Excimer.Profiler
