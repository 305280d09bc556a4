import Excimer.Log.Paths
import Excimer.Profiler.Basic

/-!
The logs of a profiler cut the sequence of its events into pieces. However
events, rotations and flush callbacks nest, only the attached log grows, so the
logs in rotation order hold every event once, and a constant `max_samples` is
the size of every piece that an event completes.
-/

namespace Excimer.Profiler

/-- The log objects are those detached, in rotation order, and the attached one. -/
structure At (p : Profiler) (before : List Log) (log : Log) : Prop where
  logs : p.logs = before ++ [log]
  current : p.current = before.length
  detached : p.detached = List.range before.length

theorem At.log_eq {p : Profiler} {before : List Log} {log : Log} (hat : p.At before log) :
    p.logs[p.current]? = some log := by
  rw [hat.logs, hat.current]
  simp

theorem At.log_unique {p : Profiler} {before : List Log} {log found : Log} (hat : p.At before log)
    (hfound : p.logs[p.current]? = some found) : found = log :=
  Option.some.inj (hfound.symm.trans hat.log_eq)

theorem At.current_attached {p : Profiler} {before : List Log} {log : Log}
    (hat : p.At before log) : p.current ∉ p.detached := by
  rw [hat.current, hat.detached]
  simp

theorem At.returned {p : Profiler} {before : List Log} {log : Log} (hat : p.At before log) :
    At { p with recording := none } before log :=
  ⟨hat.logs, hat.current, hat.detached⟩

theorem At.mem {p : Profiler} {before : List Log} {log : Log} (hat : p.At before log) :
    log ∈ p.logs :=
  List.mem_of_getElem? hat.log_eq

/-- A log that has been rotated out is found where it was. -/
theorem At.old_eq {p q : Profiler} {before : List Log} {log next : Log}
    (hnext : q.At (before ++ [log]) next) (hat : p.At before log) :
    q.logs[p.current]? = some log := by
  rw [hnext.logs, hat.current]
  simp

theorem At.withLog {p : Profiler} {before : List Log} {log : Log} (hat : p.At before log)
    (next : Log) : (p.withLog next).At before next := by
  refine ⟨?_, hat.current, hat.detached⟩
  rw [Profiler.withLog, hat.logs, hat.current]
  simp

/-- What a step does to the logs, by the part of the code it belongs to. The
index is what the step adds to the sequence of events. -/
inductive Effect (p q : Profiler) (before : List Log) (log : Log) : List (Int × UInt64) → Prop
  | record {next : Log} {stack : List ExecuteData} {eventCount : Int} {now : UInt64}
      (hidle : p.recording = none) (hadd : log.add stack eventCount now = some next)
      (hat : q.At before next) (hrecording : q.recording = some q.current) :
      Effect p q before log [(eventCount, now)]
  | keep (hrecording : p.recording = some p.current) (hroom : p.full log = false)
      (hat : q.At before log) (hdone : q.recording = none) : Effect p q before log []
  | rotate (hcause : p.recording = none ∨ p.recording = some p.current ∧ p.full log = true)
      (hat : q.At (before ++ [log]) (replacement log)) (hdone : q.recording = none) :
      Effect p q before log []
  | adjust {next : Log} (hidle : p.recording = none)
      (hnext : next = { log with maxDepth := next.maxDepth, period := next.period })
      (hat : q.At before next) (hdone : q.recording = none) : Effect p q before log []

/-- The events among the actions, with their counts and times. -/
def arrivals (actions : List Action) : List (Int × UInt64) :=
  actions.filterMap fun
    | .event _ eventCount now => some (eventCount, now)
    | _ => none

section Steps

variable {p q : Profiler} {before : List Log} {log : Log}

theorem flush_at (hat : p.At before log) {callable : Bool} (hrun : p.flush callable = some q) :
    q.At (before ++ [log]) (replacement log) ∧ q.recording = p.recording ∧
      q.maxSamples = p.maxSamples := by
  obtain ⟨found, hfound, rfl⟩ := Option.map_eq_some_iff.mp hrun
  obtain rfl := hat.log_unique hfound
  refine ⟨⟨?_, ?_, ?_⟩, rfl, rfl⟩
  · rw [← hat.logs]
  · rw [← hat.logs]
  · simp [hat.detached, hat.current, List.range_succ]

/-- Everything that a step can do, with the guards under which it does it. -/
inductive Moves (p : Profiler) : Action → Profiler → Prop
  | event {stack : List ExecuteData} {eventCount : Int} {now : UInt64} {log next : Log}
      (hidle : p.recording = none) (hlog : p.logs[p.current]? = some log)
      (hadd : log.add stack eventCount now = some next) :
      Moves p (.event stack eventCount now) { p.withLog next with recording := some p.current }
  | keep {callable : Bool} {id : Nat} {log : Log} (hrecording : p.recording = some id)
      (hlog : p.logs[id]? = some log) (hroom : p.full log = false) :
      Moves p (.test callable) { p with recording := none }
  | rotate {callable : Bool} {id : Nat} {log : Log} {q : Profiler}
      (hrecording : p.recording = some id) (hlog : p.logs[id]? = some log)
      (hfull : p.full log = true) (hflush : flush { p with recording := none } callable = some q) :
      Moves p (.test callable) q
  | ret {first : Running} {rest : List Running} (hidle : p.recording = none)
      (hrunning : p.running = first :: rest) : Moves p .ret { p with running := rest }
  | flush {callable : Bool} {q : Profiler} (hidle : p.recording = none)
      (hflush : p.flush callable = some q) : Moves p (.flush callable) q
  | setFlushCallback {callback : Nat} {maxSamples : Int} (hidle : p.recording = none) :
      Moves p (.setFlushCallback callback true maxSamples)
        { p with callback := some callback, maxSamples := maxSamples }
  | rejected {callback : Nat} {maxSamples : Int} (hidle : p.recording = none) :
      Moves p (.setFlushCallback callback false maxSamples) p
  | clearFlushCallback (hidle : p.recording = none) :
      Moves p .clearFlushCallback { p with callback := none, maxSamples := 0 }
  | setMaxDepth {depth : Int} {log : Log} (hidle : p.recording = none)
      (hlog : p.logs[p.current]? = some log) :
      Moves p (.setMaxDepth depth) (p.withLog (log.setMaxDepth depth))
  | setPeriod {period : UInt64} {log : Log} (hidle : p.recording = none)
      (hlog : p.logs[p.current]? = some log) :
      Moves p (.setPeriod period) (p.withLog { log with period := period })

theorem phpStep_moves (hidle : p.recording = none) {action : Action}
    (hstep : p.phpStep action = some q) : Moves p action q := by
  cases action with
  | event stack eventCount now =>
      obtain ⟨log, hlog, hstep⟩ := Option.bind_eq_some_iff.mp hstep
      obtain ⟨next, hadd, rfl⟩ := Option.map_eq_some_iff.mp hstep
      exact .event hidle hlog hadd
  | test callable => cases hstep
  | ret =>
      simp only [phpStep] at hstep
      cases hrunning : p.running with
      | nil => simp [hrunning] at hstep
      | cons first rest =>
          simp only [hrunning, Option.some.injEq] at hstep
          subst hstep
          exact .ret hidle hrunning
  | flush callable => exact .flush hidle hstep
  | setFlushCallback callback callable maxSamples =>
      cases callable with
      | false =>
          obtain rfl := Option.some.inj hstep
          exact .rejected hidle
      | true =>
          obtain rfl := Option.some.inj hstep
          exact .setFlushCallback hidle
  | clearFlushCallback =>
      obtain rfl := Option.some.inj hstep
      exact .clearFlushCallback hidle
  | setMaxDepth depth =>
      obtain ⟨log, hlog, rfl⟩ := Option.map_eq_some_iff.mp hstep
      exact .setMaxDepth hidle hlog
  | setPeriod period =>
      obtain ⟨log, hlog, rfl⟩ := Option.map_eq_some_iff.mp hstep
      exact .setPeriod hidle hlog

theorem step_moves {action : Action} (hstep : step p action = some q) : Moves p action q := by
  unfold step at hstep
  cases hrec : p.recording with
  | none =>
      simp only [hrec] at hstep
      exact phpStep_moves hrec hstep
  | some id =>
      simp only [hrec] at hstep
      cases action with
      | test callable =>
          obtain ⟨log, hlog, hstep⟩ := Option.bind_eq_some_iff.mp hstep
          cases hfull : p.full log with
          | true =>
              simp only [hfull, if_true] at hstep
              exact .rotate hrec hlog hfull hstep
          | false =>
              simp only [hfull, Bool.false_eq_true, if_false, Option.some.injEq] at hstep
              subst hstep
              exact .keep hrec hlog hfull
      | _ => cases hstep

/-- Every step has one of the four effects. -/
theorem step_effect (hat : p.At before log)
    (hrecording : ∀ id, p.recording = some id → id = p.current) {action : Action}
    (hstep : step p action = some q) : Effect p q before log (arrivals [action]) := by
  cases step_moves hstep with
  | @event stack eventCount now found next hidle hlog hadd =>
      obtain rfl := hat.log_unique hlog
      have hnext := hat.withLog next
      exact .record hidle hadd ⟨hnext.logs, hnext.current, hnext.detached⟩ rfl
  | keep hrec hlog hroom =>
      obtain rfl := hrecording _ hrec
      obtain rfl := hat.log_unique hlog
      exact .keep hrec hroom hat.returned rfl
  | rotate hrec hlog hfull hflush =>
      obtain rfl := hrecording _ hrec
      obtain rfl := hat.log_unique hlog
      obtain ⟨hnext, hdone, -⟩ := flush_at hat.returned hflush
      exact .rotate (Or.inr ⟨hrec, hfull⟩) hnext hdone
  | flush hidle hflush =>
      obtain ⟨hnext, hdone, -⟩ := flush_at hat hflush
      exact .rotate (Or.inl hidle) hnext (hdone.trans hidle)
  | ret hidle => exact .adjust hidle rfl ⟨hat.logs, hat.current, hat.detached⟩ hidle
  | rejected hidle => exact .adjust hidle rfl hat hidle
  | setFlushCallback hidle => exact .adjust hidle rfl ⟨hat.logs, hat.current, hat.detached⟩ hidle
  | clearFlushCallback hidle => exact .adjust hidle rfl ⟨hat.logs, hat.current, hat.detached⟩ hidle
  | setMaxDepth hidle hlog =>
      obtain rfl := hat.log_unique hlog
      exact .adjust hidle rfl (hat.withLog _) hidle
  | setPeriod hidle hlog =>
      obtain rfl := hat.log_unique hlog
      exact .adjust hidle rfl (hat.withLog _) hidle

end Steps

/-- A log as `excimer_log.c` builds it, whose count is the sum of its entries. -/
structure Sound (log : Log) : Prop where
  wellFormed : log.WellFormed
  eventCount : log.eventCount = (log.entries.map Log.Entry.eventCount).sum

theorem Sound.adjust {log next : Log} (hsound : Sound log)
    (hnext : next = { log with maxDepth := next.maxDepth, period := next.period }) :
    Sound next := by
  rw [hnext]
  exact ⟨hsound.wellFormed.of_table rfl rfl hsound.wellFormed.entry_lt, hsound.eventCount⟩

theorem replacement_sound (log : Log) : Sound (replacement log) :=
  ⟨(Log.init_wellFormed Log.zero).of_table rfl rfl (Log.init_wellFormed Log.zero).entry_lt, rfl⟩

theorem Sound.add {log next : Log} (hsound : Sound log) {stack : List ExecuteData}
    {eventCount : Int} {now : UInt64} (hadd : log.add stack eventCount now = some next) :
    Sound next ∧ ∃ entry, next.entries = log.entries ++ [entry] ∧
      entry.eventCount = eventCount ∧ entry.timestamp = now := by
  obtain ⟨hwf, -, -, hcount, entry, hentries, hrecords, -⟩ := Log.add_spec hsound.wellFormed hadd
  refine ⟨⟨hwf, ?_⟩, entry, hentries, hrecords.eventCount, hrecords.timestamp⟩
  rw [hcount, hentries, hsound.eventCount, List.map_append, List.sum_append, List.map_singleton,
    List.sum_singleton, hrecords.eventCount]

/-- The invariant of a profiler. -/
structure Inv (p : Profiler) : Prop where
  logs_at : ∃ before log, p.At before log
  recording : ∀ id, p.recording = some id → id = p.current
  sound : ∀ log ∈ p.logs, Sound log

theorem new_at (defaultMaxDepth : Int) (now : UInt64) :
    (new defaultMaxDepth now).At []
      { Log.init Log.zero with maxDepth := defaultMaxDepth, epoch := now, period := 100000000 } :=
  ⟨rfl, rfl, rfl⟩

theorem new_inv (defaultMaxDepth : Int) (now : UInt64) : Inv (new defaultMaxDepth now) where
  logs_at := ⟨_, _, new_at defaultMaxDepth now⟩
  recording := by
    intro id hid
    cases hid
  sound := by
    intro log hmem
    rw [List.mem_singleton.mp hmem]
    exact ⟨(Log.init_wellFormed Log.zero).of_table rfl rfl
      (Log.init_wellFormed Log.zero).entry_lt, rfl⟩

/-- The counts and times of the entries of logs. -/
def stamps (logs : List Log) : List (Int × UInt64) :=
  (logs.flatMap Log.entries).map fun entry => (entry.eventCount, entry.timestamp)

section Effects

variable {p q : Profiler} {before : List Log} {log : Log} {added : List (Int × UInt64)}

theorem Effect.inv (heffect : Effect p q before log added) (hinv : Inv p) (hat : p.At before log) :
    Inv q := by
  have hbefore : ∀ old ∈ before, Sound old := fun old hmem =>
    hinv.sound old (hat.logs ▸ List.mem_append_left _ hmem)
  have hlog : Sound log := hinv.sound log hat.mem
  cases heffect with
  | record _ hadd hnext hrecording =>
      refine ⟨⟨_, _, hnext⟩, ?_, ?_⟩
      · intro id hid
        exact (Option.some.inj (hrecording.symm.trans hid)).symm
      · rw [hnext.logs]
        exact List.forall_mem_append.mpr ⟨hbefore, List.forall_mem_singleton.mpr (hlog.add hadd).1⟩
  | keep _ _ hnext hdone =>
      refine ⟨⟨_, _, hnext⟩, by simp [hdone], ?_⟩
      rw [hnext.logs]
      exact List.forall_mem_append.mpr ⟨hbefore, List.forall_mem_singleton.mpr hlog⟩
  | rotate _ hnext hdone =>
      refine ⟨⟨_, _, hnext⟩, by simp [hdone], ?_⟩
      rw [hnext.logs]
      exact List.forall_mem_append.mpr ⟨List.forall_mem_append.mpr
        ⟨hbefore, List.forall_mem_singleton.mpr hlog⟩,
        List.forall_mem_singleton.mpr (replacement_sound log)⟩
  | adjust _ hsame hnext hdone =>
      refine ⟨⟨_, _, hnext⟩, by simp [hdone], ?_⟩
      rw [hnext.logs]
      exact List.forall_mem_append.mpr
        ⟨hbefore, List.forall_mem_singleton.mpr (hlog.adjust hsame)⟩

/-- A step adds its event to the end of what the logs hold. -/
theorem Effect.stamps (heffect : Effect p q before log added) (hinv : Inv p)
    (hat : p.At before log) : stamps q.logs = stamps p.logs ++ added := by
  have hlog : Sound log := hinv.sound log hat.mem
  cases heffect with
  | record _ hadd hnext _ =>
      obtain ⟨-, entry, hentries, hcount, htime⟩ := hlog.add hadd
      simp [Profiler.stamps, hnext.logs, hat.logs, hentries, hcount, htime]
  | keep _ _ hnext _ => simp [Profiler.stamps, hnext.logs, hat.logs]
  | rotate _ hnext _ =>
      simp [Profiler.stamps, hnext.logs, hat.logs, replacement, Log.copyOptions, Log.init]
  | adjust _ hsame hnext _ =>
      have hentries := congrArg Log.entries hsame
      simp [Profiler.stamps, hnext.logs, hat.logs, hentries]

/-- A step leaves the logs before the attached one alone. -/
theorem Effect.detached (heffect : Effect p q before log added) (hat : p.At before log) {id : Nat}
    (hid : id ∈ p.detached) :
    id ∈ q.detached ∧ ∃ old, p.logs[id]? = some old ∧ q.logs[id]? = some old := by
  have hlt : id < before.length := by
    rw [hat.detached] at hid
    exact List.mem_range.mp hid
  have hold : p.logs[id]? = some before[id] := by
    rw [hat.logs, List.getElem?_append_left hlt, List.getElem?_eq_getElem hlt]
  have hkept : ∀ {rest : List Log}, (before ++ rest)[id]? = some before[id] := by
    intro rest
    rw [List.getElem?_append_left hlt, List.getElem?_eq_getElem hlt]
  cases heffect with
  | record _ _ hnext _ =>
      exact ⟨hnext.detached ▸ List.mem_range.mpr hlt, _, hold, hnext.logs ▸ hkept⟩
  | keep _ _ hnext _ =>
      exact ⟨hnext.detached ▸ List.mem_range.mpr hlt, _, hold, hnext.logs ▸ hkept⟩
  | rotate _ hnext _ =>
      refine ⟨?_, _, hold, ?_⟩
      · rw [hnext.detached, List.mem_range, List.length_append]
        omega
      · rw [hnext.logs, List.append_assoc]
        exact hkept
  | adjust _ _ hnext _ =>
      exact ⟨hnext.detached ▸ List.mem_range.mpr hlt, _, hold, hnext.logs ▸ hkept⟩

/-- The attached log changes only by rotation. -/
theorem Effect.rotated (heffect : Effect p q before log added) (hat : p.At before log)
    (hmoved : q.current ≠ p.current) :
    q.At (before ++ [log]) (replacement log) ∧
      (p.recording = none ∨ p.recording = some p.current ∧ p.full log = true) := by
  cases heffect with
  | record _ _ hnext _ => exact absurd (hnext.current.trans hat.current.symm) hmoved
  | keep _ _ hnext _ => exact absurd (hnext.current.trans hat.current.symm) hmoved
  | rotate hcause hnext _ => exact ⟨hnext, hcause⟩
  | adjust _ _ hnext _ => exact absurd (hnext.current.trans hat.current.symm) hmoved

end Effects

section Runs

variable {p q : Profiler} {actions : List Action}

theorem Inv.effect (hinv : Inv p) {action : Action} (hstep : step p action = some q) :
    ∃ before log, p.At before log ∧ Effect p q before log (arrivals [action]) := by
  obtain ⟨before, log, hat⟩ := hinv.logs_at
  exact ⟨before, log, hat, step_effect hat hinv.recording hstep⟩

theorem step_inv (hinv : Inv p) {action : Action} (hstep : step p action = some q) : Inv q := by
  obtain ⟨before, log, hat, heffect⟩ := hinv.effect hstep
  exact heffect.inv hinv hat

theorem run_inv (hinv : Inv p) (hrun : Transition.run step p actions = some q) : Inv q :=
  Transition.run_invariant Inv (fun _ _ _ hinv hstep => step_inv hinv hstep) hinv hrun

theorem run_stamps (hinv : Inv p) (hrun : Transition.run step p actions = some q) :
    stamps q.logs = stamps p.logs ++ arrivals actions := by
  induction actions generalizing p with
  | nil =>
      obtain rfl := Option.some.inj hrun
      simp [arrivals]
  | cons action rest ih =>
      obtain ⟨next, hstep, hrest⟩ := Transition.run_cons hrun
      obtain ⟨before, log, hat, heffect⟩ := hinv.effect hstep
      have hsplit : arrivals (action :: rest) = arrivals [action] ++ arrivals rest := by
        rw [arrivals, arrivals, arrivals, ← List.filterMap_append, List.singleton_append]
      rw [ih (heffect.inv hinv hat) hrest, heffect.stamps hinv hat, hsplit, List.append_assoc]

theorem run_detached (hinv : Inv p) (hrun : Transition.run step p actions = some q) {id : Nat}
    (hid : id ∈ p.detached) : ∃ old, p.logs[id]? = some old ∧ q.logs[id]? = some old := by
  induction actions generalizing p with
  | nil =>
      obtain rfl := Option.some.inj hrun
      obtain ⟨before, log, hat⟩ := hinv.logs_at
      have hlt : id < p.logs.length := by
        rw [hat.detached, List.mem_range] at hid
        rw [hat.logs, List.length_append]
        omega
      exact ⟨_, List.getElem?_eq_getElem hlt, List.getElem?_eq_getElem hlt⟩
  | cons action rest ih =>
      obtain ⟨next, hstep, hrest⟩ := Transition.run_cons hrun
      obtain ⟨before, log, hat, heffect⟩ := hinv.effect hstep
      obtain ⟨hmore, old, hold, hnext⟩ := heffect.detached hat hid
      obtain ⟨kept, hkept, hfinal⟩ := ih (heffect.inv hinv hat) hrest hmore
      obtain rfl := Option.some.inj (hnext.symm.trans hkept)
      exact ⟨old, hold, hfinal⟩

end Runs

section Limit

variable {p q : Profiler} {m : Int}

/-- The attached log is within the limit, and below it unless an event has
just been recorded. -/
def Bounded (m : Int) (p : Profiler) : Prop :=
  ∃ before log, p.At before log ∧ log.entries.length ≤ m ∧
    (p.recording = none → log.entries.length < m)

/-- The limit has the value `m` in every state of a run. -/
def Steady (m : Int) (p : Profiler) (actions : List Action) : Prop :=
  ∀ before after mid, actions = before ++ after →
    Transition.run step p before = some mid → mid.maxSamples = m

theorem full_iff (hone : 1 ≤ m) (hmax : m < 2 ^ 63) (hsteady : p.maxSamples = m) (log : Log) :
    p.full log = true ↔ m ≤ log.entries.length := by
  have hmod : m % 2 ^ 64 = m := Int.emod_eq_of_lt (by omega) (by omega)
  simp only [full, hsteady, hmod, Log.getSize, decide_eq_true_eq]
  omega

theorem Effect.bounded {before : List Log} {log : Log} {added : List (Int × UInt64)}
    (heffect : Effect p q before log added) (hone : 1 ≤ m) (hmax : m < 2 ^ 63) (hlog : Sound log)
    (hsteady : p.maxSamples = m) (hle : log.entries.length ≤ m)
    (hlt : p.recording = none → log.entries.length < m) : Bounded m q := by
  cases heffect with
  | record hidle hadd hnext hrecording =>
      obtain ⟨-, entry, hentries, -⟩ := hlog.add hadd
      have hroom := hlt hidle
      refine ⟨_, _, hnext, ?_, ?_⟩
      · rw [hentries, List.length_append, List.length_singleton]
        omega
      · rw [hrecording]
        intro hnone
        cases hnone
  | keep _ hroom hnext _ =>
      have hbelow : ¬m ≤ log.entries.length := by
        rw [← full_iff hone hmax hsteady, hroom]
        exact Bool.false_ne_true
      exact ⟨_, _, hnext, by omega, fun _ => by omega⟩
  | rotate _ hnext _ =>
      have hempty : ((replacement log).entries.length : Int) = 0 := rfl
      exact ⟨_, _, hnext, by omega, fun _ => by omega⟩
  | adjust hidle hsame hnext _ =>
      have hroom := hlt hidle
      have hentries := congrArg Log.entries hsame
      exact ⟨_, _, hnext, by rw [hentries]; exact hle, fun _ => by rw [hentries]; exact hroom⟩

theorem run_bounded (hone : 1 ≤ m) (hmax : m < 2 ^ 63) (hinv : Inv p) (hbounded : Bounded m p)
    {actions : List Action} (hsteady : Steady m p actions)
    (hrun : Transition.run step p actions = some q) : Bounded m q := by
  induction actions generalizing p with
  | nil =>
      obtain rfl := Option.some.inj hrun
      exact hbounded
  | cons action rest ih =>
      obtain ⟨next, hstep, hrest⟩ := Transition.run_cons hrun
      obtain ⟨before, log, hat, hle, hlt⟩ := hbounded
      apply ih (step_inv hinv hstep) _ _ hrest
      · exact (step_effect hat hinv.recording hstep).bounded hone hmax (hinv.sound log hat.mem)
          (hsteady [] _ p rfl rfl) hle hlt
      · intro before after mid hactions hmid
        apply hsteady (action :: before) after mid (by rw [hactions, List.cons_append])
        rw [Transition.run, hstep]
        exact hmid

end Limit

/-- The entries of the detached logs, in rotation order, and of the attached one. -/
def recorded (p : Profiler) : List Log.Entry :=
  (p.detached ++ [p.current]).flatMap fun id => ((p.logs[id]?).map Log.entries).getD []

theorem At.recorded {p : Profiler} {before : List Log} {log : Log} (hat : p.At before log) :
    p.recorded = p.logs.flatMap Log.entries := by
  have hids : p.detached ++ [p.current] = List.range p.logs.length := by
    rw [hat.detached, hat.current, hat.logs, List.length_append, List.length_singleton,
      List.range_succ]
  have hentries : (List.range p.logs.length).map
      (fun id => ((p.logs[id]?).map Log.entries).getD []) = p.logs.map Log.entries := by
    apply List.ext_getElem
    · simp
    · intro i hi hi'
      simp at hi
      simp [hi]
  rw [Profiler.recorded, hids, List.flatMap_def, hentries, ← List.flatMap_def]

/-- Rotation neither loses nor duplicates events, and it never touches a log
that has been detached. The replacement has the options of the log it replaces.
From a moment at which the attached log is empty, with a constant limit, logs
stay below the limit and those that an event completes have that size. -/
theorem rotation_keeps_events {defaultMaxDepth : Int} {now : UInt64} {actions : List Action}
    {p : Profiler} (hrun : Transition.run step (new defaultMaxDepth now) actions = some p) :
    p.recorded.map (fun entry => (entry.eventCount, entry.timestamp)) = arrivals actions ∧
      (∀ log ∈ p.logs, log.eventCount = (log.entries.map Log.Entry.eventCount).sum) ∧
      (∀ more q, Transition.run step p more = some q → ∀ id ∈ p.detached,
        ∃ log, p.logs[id]? = some log ∧ q.logs[id]? = some log) ∧
      (∀ action q, step p action = some q → q.current ≠ p.current →
        q.detached = p.detached ++ [p.current] ∧
        ∃ old new, p.logs[p.current]? = some old ∧ q.logs[p.current]? = some old ∧
          q.logs[q.current]? = some new ∧ new.entries = [] ∧ new.maxDepth = old.maxDepth ∧
          new.epoch = old.epoch ∧ new.period = old.period) ∧
      ∀ m log, 1 ≤ m → m < 2 ^ 63 → p.logs[p.current]? = some log → log.entries = [] →
        p.recording = none → ∀ more q, Transition.run step p more = some q → Steady m p more →
        (q.recording = none →
          ∃ last, q.logs[q.current]? = some last ∧ last.entries.length < m) ∧
        ∀ callable r, step q (.test callable) = some r → r.current ≠ q.current →
          ∃ old, r.logs[q.current]? = some old ∧ old.entries.length = m := by
  have hstart := new_inv defaultMaxDepth now
  have hinv := run_inv hstart hrun
  obtain ⟨before, log, hat⟩ := hinv.logs_at
  refine ⟨?_, fun log hmem => (hinv.sound log hmem).eventCount,
    fun more q hmore id hid => run_detached hinv hmore hid, ?_, ?_⟩
  · rw [hat.recorded]
    exact run_stamps hstart hrun
  · intro action q hstep hmoved
    obtain ⟨hnext, -⟩ := (step_effect hat hinv.recording hstep).rotated hat hmoved
    refine ⟨?_, log, replacement log, hat.log_eq, hnext.old_eq hat,
      hnext.log_eq, rfl, rfl, rfl, rfl⟩
    rw [hnext.detached, hat.detached, hat.current, List.length_append, List.length_singleton,
      List.range_succ]
  · intro m first hone hmax hfirst hempty hidle more q hmore hsteady
    obtain rfl := (hat.log_unique hfirst).symm
    have hlength : (log.entries.length : Int) = 0 := by rw [hempty]; rfl
    have hinv' := run_inv hinv hmore
    obtain ⟨before', last, hat', hle, hlt⟩ := run_bounded hone hmax hinv
      ⟨before, log, hat, by omega, fun _ => by omega⟩ hsteady hmore
    refine ⟨fun hidle' => ⟨last, hat'.log_eq, hlt hidle'⟩, ?_⟩
    intro callable r hstep hmoved
    obtain ⟨hnext, hcause⟩ := (step_effect hat' hinv'.recording hstep).rotated hat' hmoved
    refine ⟨last, hnext.old_eq hat', ?_⟩
    rcases hcause with hnone | ⟨-, hfull⟩
    · simp [step, hnone, phpStep] at hstep
    · have hlast := hsteady more [] q (List.append_nil more).symm hmore
      have hge := (full_iff hone hmax hlast last).mp hfull
      omega

/-- Two events fill the log of a profiler, and a third occurs while the flush
callback runs. -/
def nestedEvent : List Action :=
  let stack := [Log.plainCall (Bytes.ofString "f") 3]
  [.setFlushCallback 7 true 2, .event stack 1 10, .test true, .event stack 3 20, .test true,
   .event stack 1 30, .test true, .ret]

theorem rotation_keeps_events_nestedEvent :
    ∃ p, Transition.run step (new 0 5) nestedEvent = some p ∧ p.detached = [0] ∧
      p.recorded.map (fun entry => (entry.eventCount, entry.timestamp)) =
        [(1, 10), (3, 20), (1, 30)] := by
  obtain ⟨p, hrun, hcheck⟩ := Transition.run_check step (new 0 5) nestedEvent
    (fun p => p.detached == [0]) (by decide)
  obtain ⟨hrecorded, -⟩ := rotation_keeps_events hrun
  exact ⟨p, hrun, by simpa using hcheck, hrecorded⟩

end Excimer.Profiler
