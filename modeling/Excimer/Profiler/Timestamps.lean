import Excimer.Log.Export
import Excimer.Profiler.Period

/-!
Timestamps are unsigned, and their readers subtract without a test: the epoch of
the log from the time of an entry, and the first time of a log from its last. A
log starts with the epoch zero and gets that of the profiler afterwards, from
`ExcimerProfiler_new` or, through every rotation, from the log before it.
-/

namespace Excimer

open Timer (Timespec timespecToNs timespecToNs_toNat)

namespace Log

/-- The number of nanoseconds that `ExcimerLogEntry::getTimestamp` divides by 10^9. -/
def getTimestamp (log : Log) (index : Int) : Option UInt64 :=
  (log.getEntry index).map fun entry => entry.timestamp - log.epoch

/-- `first_timestamp` in `excimer_log_get_speedscope_data`. -/
def firstTimestamp (log : Log) : UInt64 := (log.entries.head?.map Entry.timestamp).getD 0

/-- `last_timestamp` in `excimer_log_get_speedscope_data`. -/
def lastTimestamp (log : Log) : UInt64 := (log.entries.getLast?.map Entry.timestamp).getD 0

theorem getEntry_mem {log : Log} {i : Int} {entry : Entry} (hentry : log.getEntry i = some entry) :
    entry ∈ log.entries := by
  unfold getEntry at hentry
  split at hentry
  · exact List.mem_of_getElem? hentry
  · cases hentry

theorem endValue_eq {log : Log} {fuel : Nat} {data : SpeedscopeData}
    (hdata : log.getSpeedscopeData fuel = some data) {profile : SpeedscopeProfile}
    (hprofile : profile ∈ data.profiles) :
    profile.endValue = (log.lastTimestamp - log.firstTimestamp).toInt64.toInt := by
  obtain ⟨shared, -, hsamples⟩ := Option.bind_eq_some_iff.mp hdata
  obtain ⟨samples, -, rfl⟩ := Option.map_eq_some_iff.mp hsamples
  rw [List.mem_singleton.mp hprofile]
  rfl

/-- The entries are in the order of their times. -/
def Ordered (log : Log) : Prop :=
  log.entries.Pairwise fun first second => first.timestamp ≤ second.timestamp

theorem Ordered.first_le_last {log : Log} (hordered : log.Ordered) :
    log.firstTimestamp ≤ log.lastTimestamp := by
  unfold Ordered at hordered
  unfold firstTimestamp lastTimestamp
  cases hentries : log.entries with
  | nil => exact UInt64.le_refl _
  | cons first rest =>
      rw [hentries, List.pairwise_cons] at hordered
      cases rest using List.reverseRecOn with
      | nil => exact UInt64.le_refl _
      | append_singleton middle last =>
          have hlast : last ∈ middle ++ [last] := List.mem_append_right _ List.mem_cons_self
          have hle := hordered.1 last hlast
          simpa [List.getLast?_cons] using hle

end Log

namespace Profiler

/-- A subtraction of unsigned numbers that does not wrap around. -/
def Exact (a b : UInt64) : Prop := ((a - b).toNat : Int) = a.toNat - b.toNat

theorem exact_of_le {a b : UInt64} (hle : b ≤ a) : Exact a b := by
  have hnat : b.toNat ≤ a.toNat := hle
  rw [Exact, UInt64.toNat_sub_of_le a b hle]
  omega

/-- What `timerlib_clock_get_time` returns one time after the other: normalised
times that do not decrease and fit into an unsigned number of nanoseconds. -/
structure Readings (readings : List Timespec) : Prop where
  valid : ∀ ts ∈ readings, ts.Valid
  fits : ∀ ts ∈ readings, ts.nanoseconds < 2 ^ 64
  ordered : readings.Pairwise fun first second => first.nanoseconds ≤ second.nanoseconds

theorem timespecToNs_exact {ts : Timespec} (hvalid : ts.Valid) (hfits : ts.nanoseconds < 2 ^ 64) :
    ((timespecToNs ts).toNat : Int) = ts.nanoseconds := by
  rw [timespecToNs_toNat]
  exact Int.emod_eq_of_lt hvalid.nanoseconds_nonneg hfits

/-- The conversion keeps the order of the readings. -/
theorem Readings.converted {readings : List Timespec} (hreadings : Readings readings) :
    (readings.map timespecToNs).Pairwise (· ≤ ·) := by
  rw [List.pairwise_map]
  refine hreadings.ordered.imp_of_mem fun {first second} hfirst hsecond hle => ?_
  have hfirstNs := timespecToNs_exact (hreadings.valid _ hfirst) (hreadings.fits _ hfirst)
  have hsecondNs := timespecToNs_exact (hreadings.valid _ hsecond) (hreadings.fits _ hsecond)
  rw [UInt64.le_iff_toNat_le]
  omega

section Epoch

variable {p q : Profiler} {epoch : UInt64}

theorem Effect.keeps_epoch {before : List Log} {log : Log} {added : List (Int × UInt64)}
    (heffect : Effect p q before log added) (hat : p.At before log)
    (hepoch : ∀ log ∈ p.logs, log.epoch = epoch) : ∀ log ∈ q.logs, log.epoch = epoch := by
  have hbefore : ∀ old ∈ before, old.epoch = epoch := fun old hmem =>
    hepoch old (hat.logs ▸ List.mem_append_left _ hmem)
  have hlog : log.epoch = epoch := hepoch log hat.mem
  cases heffect with
  | record _ hadd hnext _ =>
      rw [hnext.logs]
      exact List.forall_mem_append.mpr
        ⟨hbefore, List.forall_mem_singleton.mpr ((Log.add_fields hadd).1.trans hlog)⟩
  | keep _ _ hnext _ =>
      rw [hnext.logs]
      exact List.forall_mem_append.mpr ⟨hbefore, List.forall_mem_singleton.mpr hlog⟩
  | rotate _ hnext _ =>
      -- the new log has the epoch that `excimer_log_copy_options` gave it
      rw [hnext.logs]
      exact List.forall_mem_append.mpr ⟨List.forall_mem_append.mpr
        ⟨hbefore, List.forall_mem_singleton.mpr hlog⟩, List.forall_mem_singleton.mpr hlog⟩
  | adjust _ hsame hnext _ =>
      rw [hnext.logs]
      exact List.forall_mem_append.mpr
        ⟨hbefore, List.forall_mem_singleton.mpr ((congrArg Log.epoch hsame).trans hlog)⟩

theorem run_epoch {actions : List Action} (hinv : Inv p)
    (hepoch : ∀ log ∈ p.logs, log.epoch = epoch)
    (hrun : Transition.run step p actions = some q) : ∀ log ∈ q.logs, log.epoch = epoch := by
  refine (Transition.run_invariant (fun p => Inv p ∧ ∀ log ∈ p.logs, log.epoch = epoch) ?_
    ⟨hinv, hepoch⟩ hrun).2
  rintro p action q ⟨hinv, hepoch⟩ hstep
  obtain ⟨before, log, hat, heffect⟩ := hinv.effect hstep
  exact ⟨heffect.inv hinv hat, heffect.keeps_epoch hat hepoch⟩

end Epoch

section Times

variable {defaultMaxDepth : Int} {now : UInt64} {actions : List Action} {p : Profiler}

/-- The times in the logs are those of the events. -/
theorem run_times (hrun : Transition.run step (new defaultMaxDepth now) actions = some p) :
    (p.logs.flatMap Log.entries).map Log.Entry.timestamp = (arrivals actions).map Prod.snd := by
  have hstamps := run_stamps (new_inv defaultMaxDepth now) hrun
  have hnone : stamps (new defaultMaxDepth now).logs = [] := rfl
  rw [hnone, List.nil_append] at hstamps
  rw [← hstamps, stamps, List.map_map]
  rfl

/-- The events of a run in which the clock does not run backwards. -/
theorem run_ordered (hrun : Transition.run step (new defaultMaxDepth now) actions = some p)
    (hordered : (now :: (arrivals actions).map Prod.snd).Pairwise (· ≤ ·)) :
    (∀ log ∈ p.logs, ∀ entry ∈ log.entries, now ≤ entry.timestamp) ∧
      (∀ log ∈ p.logs, log.Ordered) ∧
      p.logs.Pairwise fun old new => ∀ first ∈ old.entries, ∀ second ∈ new.entries,
        first.timestamp ≤ second.timestamp := by
  rw [← run_times hrun, List.pairwise_cons, List.pairwise_map, List.pairwise_flatMap] at hordered
  obtain ⟨hfirst, hlogs, hrotated⟩ := hordered
  refine ⟨fun log hlog entry hentry => ?_, hlogs, hrotated⟩
  exact hfirst _ (List.mem_map_of_mem (List.mem_flatMap.mpr ⟨log, hlog, hentry⟩))

end Times

/-- All logs of a profiler have the epoch of its creation, no entry is older, and
the times do not decrease within a log or from one log to the next. So neither
the time of an entry nor the length of a profile wraps around. -/
theorem timestamps_ordered {defaultMaxDepth : Int} {created : Timespec} {readings : List Timespec}
    (hclock : Readings (created :: readings)) {actions : List Action}
    (hreadings : (arrivals actions).map Prod.snd = readings.map timespecToNs) {p : Profiler}
    (hrun : Transition.run step (new defaultMaxDepth (timespecToNs created)) actions = some p) :
    (∀ log ∈ p.logs, log.epoch = timespecToNs created ∧
        (∀ entry ∈ log.entries, log.epoch ≤ entry.timestamp) ∧ log.Ordered) ∧
      (p.logs.Pairwise fun old new => ∀ first ∈ old.entries, ∀ second ∈ new.entries,
        first.timestamp ≤ second.timestamp) ∧
      (∀ log ∈ p.logs, ∀ i entry, log.getEntry i = some entry →
        log.getTimestamp i = some (entry.timestamp - log.epoch) ∧
          Exact entry.timestamp log.epoch) ∧
      ∀ log ∈ p.logs, Exact log.lastTimestamp log.firstTimestamp ∧
        ∀ fuel data, log.getSpeedscopeData fuel = some data → ∀ profile ∈ data.profiles,
          profile.endValue = (log.lastTimestamp - log.firstTimestamp).toInt64.toInt := by
  have hepoch : ∀ log ∈ p.logs, log.epoch = timespecToNs created := by
    refine run_epoch (new_inv defaultMaxDepth _) ?_ hrun
    exact List.forall_mem_singleton.mpr rfl
  have hconverted := hclock.converted
  rw [List.map_cons, ← hreadings] at hconverted
  obtain ⟨hafter, hordered, hrotated⟩ := run_ordered hrun hconverted
  have hnotBefore : ∀ log ∈ p.logs, ∀ entry ∈ log.entries, log.epoch ≤ entry.timestamp := by
    intro log hlog entry hentry
    rw [hepoch log hlog]
    exact hafter log hlog entry hentry
  refine ⟨fun log hlog => ⟨hepoch log hlog, hnotBefore log hlog, hordered log hlog⟩, hrotated,
    fun log hlog i entry hentry => ⟨?_, ?_⟩, fun log hlog => ⟨?_, ?_⟩⟩
  · rw [Log.getTimestamp, hentry, Option.map_some]
  · exact exact_of_le (hnotBefore log hlog entry (Log.getEntry_mem hentry))
  · exact exact_of_le (hordered log hlog).first_le_last
  · exact fun fuel data hdata profile hprofile => Log.endValue_eq hdata hprofile

/-- Two events fill a log, and the third is in the next one. The clock shows the
same time twice. -/
def rotatedOnce : List Action :=
  let stack := [Log.plainCall (Bytes.ofString "f") 3]
  [.setFlushCallback 7 true 2, .event stack 1 5000000010, .test true, .event stack 3 5000000010,
   .test true, .event stack 1 6000000000, .test true, .ret]

theorem timestamps_ordered_rotatedOnce :
    ∃ p, Transition.run step (new 0 (timespecToNs ⟨5, 0⟩)) rotatedOnce = some p ∧
      p.detached = [0] ∧ ∀ log ∈ p.logs, log.epoch = 5000000000 := by
  obtain ⟨p, hrun, hcheck⟩ := Transition.run_check step (new 0 (timespecToNs ⟨5, 0⟩)) rotatedOnce
    (fun p => p.detached == [0]) (by decide)
  have hclock : Readings [⟨5, 0⟩, ⟨5, 10⟩, ⟨5, 10⟩, ⟨6, 0⟩] := ⟨by decide, by decide, by decide⟩
  obtain ⟨hlogs, -⟩ := timestamps_ordered hclock (by decide) hrun
  exact ⟨p, hrun, by simpa using hcheck, fun log hlog => (hlogs log hlog).1⟩

end Profiler

end Excimer
