import Excimer.Log.Speedscope
import Excimer.Profiler.Rotation
import Excimer.Timer.Timespec

/-!
The period of a profiler lives in three places: the object, the armed timer and
the log. `ExcimerProfiler::setPeriod` changes the first and the third at once,
the timer follows at the next start. The weights of an export are made with the
period of the log, so they are right as long as nobody sees the difference.
-/

namespace Excimer.Profiler

open Timer (Timespec timespecToNs)

/-- A profiler with its period. -/
structure Clocked where
  profiler : Profiler
  /-- `profiler->period` -/
  period : Timespec
  /-- The period that the timer was armed with last. -/
  armed : Option Timespec
  /-- A history of the armed periods at the events, oldest first. -/
  taken : List Timespec

namespace Clocked

def new (defaultMaxDepth : Int) (now : UInt64) : Clocked where
  profiler := Profiler.new defaultMaxDepth now
  period := ⟨0, 100000000⟩
  armed := none
  taken := []

inductive Action where
  /-- The argument of `ExcimerProfiler::setPeriod` is a floating point number. It
  is converted twice, by `timerlib_timespec_from_double` and by a product with
  10^9. -/
  | setPeriod (period : Timespec) (nanoseconds : UInt64)
  /-- `ExcimerProfiler::start`, with the outcome of the timer library. -/
  | start (ok : Bool)
  | stop
  /-- Everything else. -/
  | other (action : Profiler.Action)

/-- An event can occur once the timer has been armed, also when it has been
stopped again in the meantime. The timer is not armed with a period of zero,
because the staggered first value is zero too then. -/
def step (s : Clocked) : Action → Option Clocked
  | .setPeriod period nanoseconds =>
      (s.profiler.step (.setPeriod nanoseconds)).map fun p =>
        { s with profiler := p, period := period }
  | .start ok =>
      if s.profiler.recording = none then
        some (if ok ∧ ¬s.period.isZero then { s with armed := some s.period } else s)
      else none
  | .stop => if s.profiler.recording = none then some s else none
  | .other (.setPeriod _) => none
  | .other (.event stack eventCount now) =>
      s.armed.bind fun period =>
        (s.profiler.step (.event stack eventCount now)).map fun p =>
          { s with profiler := p, taken := s.taken ++ [period] }
  | .other action => (s.profiler.step action).map fun p => { s with profiler := p }

/-- A number of events times a period in nanoseconds. -/
def weight (eventCount : Int) (period : Timespec) : Int :=
  eventCount * (timespecToNs period).toNat

/-- The weight fits into a `zend_long`. -/
def Fits (eventCount : Int) (period : Timespec) : Prop :=
  -2 ^ 63 ≤ weight eventCount period ∧ weight eventCount period < 2 ^ 63

instance (eventCount : Int) (period : Timespec) : Decidable (Fits eventCount period) :=
  inferInstanceAs (Decidable (_ ∧ _))

/-- Use of the profiler that keeps the three periods together. The period is
changed only while the attached log has no entries, its two conversions agree,
and a changed period is followed by a start before the next event. -/
def Regular (s : Clocked) : Action → Prop
  | .setPeriod period nanoseconds =>
      timespecToNs period = nanoseconds ∧
        ∀ log ∈ s.profiler.logs[s.profiler.current]?, log.entries = [] ∨ log.period = nanoseconds
  | .other (.event _ eventCount _) => s.armed = some s.period ∧ Fits eventCount s.period
  | _ => True

instance (s : Clocked) (action : Action) : Decidable (Regular s action) :=
  match action with
  | .setPeriod _ _ => inferInstanceAs (Decidable (_ ∧ ∀ _ ∈ _, _ ∨ _))
  | .start _ => instDecidableTrue
  | .stop => instDecidableTrue
  | .other (.event _ _ _) => inferInstanceAs (Decidable (_ ∧ _))
  | .other (.test _) => instDecidableTrue
  | .other .ret => instDecidableTrue
  | .other (.flush _) => instDecidableTrue
  | .other (.setFlushCallback _ _ _) => instDecidableTrue
  | .other .clearFlushCallback => instDecidableTrue
  | .other (.setMaxDepth _) => instDecidableTrue
  | .other (.setPeriod _) => instDecidableTrue

/-- The period of the log is the one that its entries were taken with. -/
def Priced (log : Log) (periods : List Timespec) : Prop :=
  List.Forall₂ (fun entry period => log.period = timespecToNs period ∧
    Fits entry.eventCount period) log.entries periods

structure Inv (s : Clocked) : Prop where
  profiler : Profiler.Inv s.profiler
  attached : ∀ log, s.profiler.logs[s.profiler.current]? = some log →
    log.period = timespecToNs s.period
  priced : ∃ taken, taken.flatten = s.taken ∧ List.Forall₂ Priced s.profiler.logs taken

section Steps

variable {p q : Profiler} {before : List Log} {log : Log}

theorem flush_period (hat : p.At before log) {callable : Bool} (hrun : p.flush callable = some q)
    {next : Log} (hnext : q.logs[q.current]? = some next) : next.period = log.period := by
  obtain ⟨hafter, -⟩ := flush_at hat hrun
  rw [hafter.log_unique hnext]
  rfl

/-- The other methods leave the period of the attached log alone. -/
theorem step_period (hat : p.At before log) {action : Profiler.Action}
    (hother : ∀ nanoseconds, action ≠ .setPeriod nanoseconds) (hstep : p.step action = some q)
    {next : Log} (hnext : q.logs[q.current]? = some next) : next.period = log.period := by
  have hsame (hlog : p.logs[p.current]? = some next) : next.period = log.period := by
    rw [hat.log_unique hlog]
  cases step_moves hstep with
  | @event stack eventCount now found changed hidle hlog hadd =>
      obtain rfl := hat.log_unique hlog
      obtain rfl := (hat.withLog changed).log_unique hnext
      exact (Log.add_fields hadd).2.1
  | keep => exact hsame hnext
  | rotate hrec hlog hfull hflush => exact flush_period hat.returned hflush hnext
  | flush hidle hflush => exact flush_period hat hflush hnext
  | ret => exact hsame hnext
  | rejected => exact hsame hnext
  | setFlushCallback => exact hsame hnext
  | clearFlushCallback => exact hsame hnext
  | setMaxDepth hidle hlog =>
      obtain rfl := hat.log_unique hlog
      rw [(hat.withLog _).log_unique hnext]
      rfl
  | setPeriod => exact absurd rfl (hother _)

/-- Changing the period of a log without entries is not seen by its entries. -/
theorem Priced.adjust {next : Log} {periods : List Timespec} (hpriced : Priced log periods)
    (hentries : next.entries = log.entries)
    (hperiod : log.entries = [] ∨ next.period = log.period) : Priced next periods := by
  rcases hperiod with hempty | hsame
  · rw [Priced, hempty, List.forall₂_nil_left_iff] at hpriced
    rw [Priced, hentries, hempty, hpriced]
    exact .nil
  · rw [Priced, hentries, hsame]
    exact hpriced

theorem Priced.add (hsound : Sound log) {next : Log} {stack : List ExecuteData}
    {eventCount : Int} {now : UInt64} (hadd : log.add stack eventCount now = some next)
    {periods : List Timespec} (hpriced : Priced log periods) {period : Timespec}
    (hperiod : log.period = timespecToNs period) (hfits : Fits eventCount period) :
    Priced next (periods ++ [period]) := by
  obtain ⟨-, entry, hentries, hcount, -⟩ := hsound.add hadd
  rw [Priced, hentries, (Log.add_fields hadd).2.1]
  exact List.rel_append hpriced (.cons ⟨hperiod, by rwa [hcount]⟩ .nil)

/-- Steps without an event that keep the period of the attached log keep the
prices. -/
theorem priced_of_effect (heffect : Effect p q before log []) (hat : p.At before log)
    (hperiod : ∀ next, q.logs[q.current]? = some next → log.entries = [] ∨ next.period = log.period)
    {taken : List (List Timespec)} (hpriced : List.Forall₂ Priced p.logs taken) :
    ∃ after : List (List Timespec), after.flatten = taken.flatten ∧
      List.Forall₂ Priced q.logs after := by
  cases heffect with
  | keep _ _ hnext _ => exact ⟨taken, rfl, by rwa [hnext.logs, ← hat.logs]⟩
  | rotate _ hnext _ =>
      refine ⟨taken ++ [[]], by simp, ?_⟩
      rw [hnext.logs, ← hat.logs]
      exact List.rel_append hpriced (.cons .nil .nil)
  | adjust _ hsame hnext _ =>
      rw [hat.logs] at hpriced
      obtain ⟨init, last, rfl, hinit, hlast⟩ := hpriced.concat_left
      refine ⟨init ++ [last], rfl, ?_⟩
      rw [hnext.logs]
      refine List.rel_append hinit (.cons ?_ .nil)
      have hentries := congrArg Log.entries hsame
      exact hlast.adjust hentries (hperiod _ hnext.log_eq)

theorem arrivals_eq_nil {action : Profiler.Action}
    (hother : ∀ stack eventCount now, action ≠ .event stack eventCount now) :
    arrivals [action] = [] := by
  cases action with
  | event stack eventCount now => exact absurd rfl (hother stack eventCount now)
  | _ => rfl

end Steps

section Runs

variable {s next : Clocked}

theorem new_inv (defaultMaxDepth : Int) (now : UInt64) : Inv (new defaultMaxDepth now) where
  profiler := Profiler.new_inv defaultMaxDepth now
  attached := by
    intro log hlog
    obtain rfl := (new_at defaultMaxDepth now).log_unique hlog
    have hdefault : (100000000 : UInt64) = timespecToNs ⟨0, 100000000⟩ := by decide
    exact hdefault
  priced := ⟨[[]], rfl, .cons .nil .nil⟩

theorem Inv.setPeriod (hinv : Inv s) {period : Timespec} {nanoseconds : UInt64}
    (hregular : Regular s (.setPeriod period nanoseconds))
    (hstep : step s (.setPeriod period nanoseconds) = some next) : Inv next := by
  obtain ⟨q, hq, rfl⟩ := Option.map_eq_some_iff.mp hstep
  obtain ⟨before, log, hat, heffect⟩ := hinv.profiler.effect hq
  obtain ⟨hagree, hempty⟩ := hregular
  obtain ⟨taken, htaken, hpriced⟩ := hinv.priced
  have hchanged : ∀ changed, q.logs[q.current]? = some changed → changed.period = nanoseconds := by
    intro changed hchanged
    cases step_moves hq with
    | setPeriod hidle hlog =>
        obtain rfl := hat.log_unique hlog
        rw [(hat.withLog _).log_unique hchanged]
  refine ⟨Profiler.step_inv hinv.profiler hq, ?_, ?_⟩
  · intro changed hattached
    rw [hagree]
    exact hchanged changed hattached
  · have hperiod : ∀ changed, q.logs[q.current]? = some changed →
        log.entries = [] ∨ changed.period = log.period := by
      intro changed hattached
      rcases hempty log hat.log_eq with hnone | hsame
      · exact Or.inl hnone
      · exact Or.inr ((hchanged changed hattached).trans hsame.symm)
    obtain ⟨after, hafter, hprices⟩ := priced_of_effect heffect hat hperiod hpriced
    exact ⟨after, hafter.trans htaken, hprices⟩

theorem Inv.event (hinv : Inv s) {stack : List ExecuteData} {eventCount : Int} {now : UInt64}
    (hregular : Regular s (.other (.event stack eventCount now)))
    (hstep : step s (.other (.event stack eventCount now)) = some next) : Inv next := by
  obtain ⟨period, harmed, hstep⟩ := Option.bind_eq_some_iff.mp hstep
  obtain ⟨q, hq, rfl⟩ := Option.map_eq_some_iff.mp hstep
  obtain ⟨before, log, hat, heffect⟩ := hinv.profiler.effect hq
  obtain ⟨hcurrent, hfits⟩ := hregular
  obtain rfl := Option.some.inj (harmed.symm.trans hcurrent)
  obtain ⟨taken, htaken, hpriced⟩ := hinv.priced
  have hattached := hinv.attached log hat.log_eq
  refine ⟨Profiler.step_inv hinv.profiler hq, ?_, ?_⟩
  · intro changed hchanged
    rw [step_period hat (by simp) hq hchanged, hattached]
  · have hlog := hinv.profiler.sound log hat.mem
    rw [hat.logs] at hpriced
    obtain ⟨init, last, rfl, hinit, hlast⟩ := hpriced.concat_left
    cases heffect with
    | record _ hadd hnext _ =>
        refine ⟨init ++ [last ++ [s.period]], ?_, ?_⟩
        · simp [← htaken]
        · rw [hnext.logs]
          exact List.rel_append hinit (.cons (hlast.add hlog hadd hattached hfits) .nil)

theorem Inv.other (hinv : Inv s) {action : Profiler.Action}
    (hevent : ∀ stack eventCount now, action ≠ .event stack eventCount now)
    (hperiod : ∀ nanoseconds, action ≠ .setPeriod nanoseconds)
    {q : Profiler} (hq : s.profiler.step action = some q) : Inv { s with profiler := q } := by
  obtain ⟨before, log, hat, heffect⟩ := hinv.profiler.effect hq
  rw [arrivals_eq_nil hevent] at heffect
  obtain ⟨taken, htaken, hpriced⟩ := hinv.priced
  have hkept : ∀ changed, q.logs[q.current]? = some changed → changed.period = log.period :=
    fun changed => step_period hat hperiod hq
  refine ⟨Profiler.step_inv hinv.profiler hq, ?_, ?_⟩
  · intro changed hchanged
    rw [hkept changed hchanged]
    exact hinv.attached log hat.log_eq
  · obtain ⟨after, hafter, hprices⟩ := priced_of_effect heffect hat
      (fun changed hchanged => Or.inr (hkept changed hchanged)) hpriced
    exact ⟨after, hafter.trans htaken, hprices⟩

theorem step_inv (hinv : Inv s) {action : Action} (hregular : Regular s action)
    (hstep : step s action = some next) : Inv next := by
  cases action with
  | setPeriod period nanoseconds => exact hinv.setPeriod hregular hstep
  | start ok =>
      simp only [step] at hstep
      obtain ⟨-, hnext⟩ := Option.ite_none_right_eq_some.mp hstep
      obtain rfl := Option.some.inj hnext
      split
      · exact ⟨hinv.profiler, hinv.attached, hinv.priced⟩
      · exact hinv
  | stop =>
      simp only [step] at hstep
      obtain ⟨-, hnext⟩ := Option.ite_none_right_eq_some.mp hstep
      obtain rfl := Option.some.inj hnext
      exact hinv
  | other action =>
      cases action with
      | setPeriod nanoseconds => cases hstep
      | event stack eventCount now => exact hinv.event hregular hstep
      | _ =>
          obtain ⟨q, hq, rfl⟩ := Option.map_eq_some_iff.mp hstep
          exact hinv.other (by simp) (by simp) hq

end Runs

section Weights

variable {log : Log} {fuel : Nat}

theorem getSpeedscopeData_weights (hwf : log.WellFormed) (hfuel : log.frames.length ≤ fuel) :
    ∃ data profile, log.getSpeedscopeData fuel = some data ∧ data.profiles = [profile] ∧
      profile.weights = log.entries.map fun entry =>
        Int.bmod (entry.eventCount * log.period.toNat) (2 ^ 64) := by
  obtain ⟨data, hdata⟩ := Option.isSome_iff_exists.mp (Log.getSpeedscopeData_isSome hwf hfuel)
  obtain ⟨shared, -, hsamples⟩ := Option.bind_eq_some_iff.mp hdata
  obtain ⟨samples, -, rfl⟩ := Option.map_eq_some_iff.mp hsamples
  exact ⟨_, _, hdata, rfl, rfl⟩

theorem Fits.bmod {eventCount : Int} {period : Timespec} (hfits : Fits eventCount period) :
    Int.bmod (weight eventCount period) (2 ^ 64) = weight eventCount period := by
  obtain ⟨hlow, hhigh⟩ := hfits
  apply Int.bmod_eq_of_le <;> omega

theorem Priced.weights {periods : List Timespec} (hpriced : Priced log periods) :
    (log.entries.map fun entry => Int.bmod (entry.eventCount * log.period.toNat) (2 ^ 64)) =
      List.zipWith (fun entry period => weight entry.eventCount period) log.entries periods := by
  have hall : ∀ {entries : List Log.Entry} {periods : List Timespec},
      List.Forall₂ (fun entry period => log.period = timespecToNs period ∧
        Fits entry.eventCount period) entries periods →
      (entries.map fun entry => Int.bmod (entry.eventCount * log.period.toNat) (2 ^ 64)) =
        List.zipWith (fun entry period => weight entry.eventCount period) entries periods := by
    intro entries periods hprices
    induction hprices with
    | nil => rfl
    | cons hhead _ ih =>
        rw [List.map_cons, List.zipWith_cons_cons, ih, ← hhead.2.bmod, weight, hhead.1]
  exact hall hpriced

end Weights

/-- In a run of regular steps, the exports of all logs have the weights that the
armed periods give, whatever was set afterwards. -/
theorem weights_of_regular {defaultMaxDepth : Int} {now : UInt64} {actions : List Action}
    {s : Clocked} (hrun : Transition.run step (new defaultMaxDepth now) actions = some s)
    (hregular : Transition.Along step Regular (new defaultMaxDepth now) actions) :
    ∃ taken : List (List Timespec), taken.flatten = s.taken ∧
      List.Forall₂ (fun (log : Log) periods => log.entries.length = periods.length ∧
        ∀ fuel, log.frames.length ≤ fuel → ∃ data profile,
          log.getSpeedscopeData fuel = some data ∧ data.profiles = [profile] ∧
          profile.weights = List.zipWith (fun entry period => weight entry.eventCount period)
            log.entries periods) s.profiler.logs taken := by
  have hinv := hregular.invariant Inv (fun _ _ _ hinv hallowed => step_inv hinv hallowed)
    (new_inv defaultMaxDepth now) hrun
  obtain ⟨taken, htaken, hpriced⟩ := hinv.priced
  refine ⟨taken, htaken, ?_⟩
  have hboth := (List.forall₂_and_left _ _).mpr
    ⟨fun (log : Log) (hmem : log ∈ s.profiler.logs) => hinv.profiler.sound log hmem, hpriced⟩
  apply hboth.imp
  rintro log periods ⟨hsound, hprices⟩
  refine ⟨hprices.length_eq, fun fuel hfuel => ?_⟩
  obtain ⟨data, profile, hdata, hprofile, hweights⟩ :=
    getSpeedscopeData_weights hsound.wellFormed hfuel
  exact ⟨data, profile, hdata, hprofile, hweights.trans (Priced.weights hprices)⟩

/-- The period is changed between two logs, and the timer is started again. -/
def betweenLogs : List Action :=
  let event := Action.other (.event [Log.plainCall (Bytes.ofString "f") 3] 2 10)
  [.setPeriod ⟨2, 0⟩ 2000000000, .start true, event, .other (.test true), .other (.flush true),
   .setPeriod ⟨0, 500⟩ 500, .start true, event, .other (.test true)]

theorem weights_of_regular_betweenLogs :
    ∃ s, Transition.run step (new 0 5) betweenLogs = some s ∧ s.taken = [⟨2, 0⟩, ⟨0, 500⟩] ∧
      Transition.Along step Regular (new 0 5) betweenLogs ∧
      ∃ taken : List (List Timespec), taken.flatten = [⟨2, 0⟩, ⟨0, 500⟩] ∧
        List.Forall₂ (fun (log : Log) periods => log.entries.length = periods.length)
          s.profiler.logs taken := by
  obtain ⟨s, hrun, hcheck⟩ := Transition.run_check step (new 0 5) betweenLogs
    (fun s => s.taken == [⟨2, 0⟩, ⟨0, 500⟩]) (by decide)
  have hregular : Transition.Along step Regular (new 0 5) betweenLogs := by decide
  obtain ⟨taken, htaken, hlogs⟩ := weights_of_regular hrun hregular
  have hperiods : s.taken = [⟨2, 0⟩, ⟨0, 500⟩] := eq_of_beq hcheck
  exact ⟨s, hrun, hperiods, hregular, taken, htaken.trans hperiods, hlogs.imp fun _ _ h => h.1⟩

/-- A sample is taken with a period of two seconds, and the period is set to one
second before the log is read. -/
def changedAfterwards : List Action :=
  [.setPeriod ⟨2, 0⟩ 2000000000, .start true,
   .other (.event [Log.plainCall (Bytes.ofString "f") 3] 1 10), .other (.test true),
   .setPeriod ⟨1, 0⟩ 1000000000]

theorem weights_changedAfterwards :
    ∃ s log data profile, Transition.run step (new 0 5) changedAfterwards = some s ∧
      s.taken = [⟨2, 0⟩] ∧ s.profiler.logs = [log] ∧
      log.getSpeedscopeData 2 = some data ∧ data.profiles = [profile] ∧
      profile.weights = [1000000000] := by
  obtain ⟨s, hrun, hcheck⟩ := Transition.run_check step (new 0 5) changedAfterwards
    (fun s => s.taken == [⟨2, 0⟩] && s.profiler.logs.map (fun log =>
      (log.getSpeedscopeData 2).map fun data => data.profiles.map Log.SpeedscopeProfile.weights) ==
        [some [[1000000000]]]) (by decide)
  simp only [Bool.and_eq_true, beq_iff_eq] at hcheck
  obtain ⟨htaken, hlogs⟩ := hcheck
  obtain ⟨log, hlog, hdata⟩ := List.map_eq_singleton_iff.mp hlogs
  obtain ⟨data, hdata, hprofiles⟩ := Option.map_eq_some_iff.mp hdata
  obtain ⟨profile, hprofile, hweights⟩ := List.map_eq_singleton_iff.mp hprofiles
  exact ⟨s, log, data, profile, hrun, htaken, hlog, hdata, hprofile, hweights⟩

end Clocked

end Excimer.Profiler
