import Excimer.Log.Paths

/-!
The limit on the depth of a stack. `excimer_log_find_or_add_frame` counts the
depth from zero and compares it only after it has decided to record the element
it stands on, so one element more than the limit says is looked at. Elements that
are not user code count as well, although they leave no frame.
-/

namespace Excimer.Log

/-- What `max_depth` promises for the trace of a sample: no more frames than the
limit, not counting the marker, and the marker exactly if the stack is deeper. -/
structure WithinLimit (log : Log) (sample : Sample) (met : List (Nat × Frame)) : Prop where
  frames_le : ((met.filter fun link => log.marker ≠ some link.1).length : Int) ≤ sample.maxDepth
  marker_iff : (∃ link ∈ met, log.marker = some link.1) ↔ sample.maxDepth < sample.stack.length

section Counting

variable {log : Log} {sample : Sample} {met : List (Nat × Frame)}

theorem label_eq_none {link : Nat × Frame} : log.label link = none ↔ log.marker = some link.1 := by
  unfold label
  split <;> simp_all

/-- The frames of a trace are the calls of the sample. -/
theorem frames_length
    (hlabels : met.map log.label =
      sample.path.map some ++ if sample.truncated then [none] else []) :
    (met.filter fun link => log.marker ≠ some link.1).length = sample.calls.length := by
  have hframes : (met.filter fun link => log.marker ≠ some link.1).length =
      ((met.map log.label).filter Option.isSome).length := by
    rw [List.filter_map, List.length_map]
    congr 1
    refine List.filter_congr fun link _ => ?_
    rw [Function.comp_apply, Bool.eq_iff_iff, decide_eq_true_iff, Option.isSome_iff_ne_none, Ne, Ne,
      label_eq_none]
  have hsome : (sample.path.map some).filter Option.isSome = sample.path.map some := by
    rw [List.filter_eq_self]
    intro name hmem
    obtain ⟨location, -, rfl⟩ := List.mem_map.mp hmem
    rfl
  rw [hframes, hlabels, List.filter_append, List.length_append, hsome]
  cases sample.truncated <;> simp [Sample.path]

theorem marker_mem
    (hlabels : met.map log.label =
      sample.path.map some ++ if sample.truncated then [none] else []) :
    (∃ link ∈ met, log.marker = some link.1) ↔ sample.truncated = true := by
  have hmem : (∃ link ∈ met, log.marker = some link.1) ↔ none ∈ met.map log.label := by
    rw [List.mem_map]
    exact exists_congr fun link => and_congr_right fun _ => label_eq_none.symm
  rw [hmem, hlabels]
  cases sample.truncated <;> simp

theorem visible_eq_take (hlimit : 1 ≤ sample.maxDepth) :
    sample.visible = sample.stack.take (sample.maxDepth.toNat + 1) := by
  have hmax : max sample.maxDepth 0 = sample.maxDepth := by omega
  rw [Sample.visible, if_neg (by omega), hmax]

theorem truncated_iff (hlimit : 1 ≤ sample.maxDepth) :
    sample.truncated = true ↔ sample.maxDepth + 1 < sample.stack.length := by
  simp only [Sample.truncated, decide_eq_true_iff]
  omega

/-- There are fewer frames than elements exactly if one element is not user code. -/
theorem calls_length_lt_iff (sample : Sample) :
    sample.calls.length < sample.visible.length ↔
      ∃ current ∈ sample.visible, current.userFunction = none := by
  have hle : sample.calls.length ≤ sample.visible.length := List.length_filterMap_le _ _
  have heq : sample.calls.length = sample.visible.length ↔
      ∀ current ∈ sample.visible, current.call.isSome = true := List.filterMap_length_eq_length
  have hcall : ∀ current : ExecuteData,
      ¬current.call.isSome = true ↔ current.userFunction = none := by
    intro current
    simp [ExecuteData.call]
  rw [Nat.lt_iff_le_and_ne, and_iff_right hle, Ne, heq]
  simp only [not_forall, exists_prop, hcall]

end Counting

/-- The limit is respected exactly if the stack is not deeper than it, or is
deeper by two elements or more of which one that is looked at is not user code. -/
theorem limit_respected_iff {memory log : Log} {actions : List Action}
    (hrun : Transition.run step (init memory) actions = some log) {k : Nat} {entry : Entry}
    {sample : Sample} (hentry : log.entries[k]? = some entry)
    (hsample : (samples memory.maxDepth actions)[k]? = some sample)
    (hlimit : 1 ≤ sample.maxDepth) :
    ∃ met, (∀ fuel, log.frames.length ≤ fuel → log.trace fuel entry.frameIndex = some met) ∧
      (WithinLimit log sample met ↔
        sample.stack.length ≤ sample.maxDepth ∨
        sample.maxDepth + 1 < sample.stack.length ∧
          ∃ current ∈ sample.stack.take (sample.maxDepth.toNat + 1),
            current.userFunction = none) := by
  obtain ⟨hholds, -⟩ := (init_holds memory).run hrun
  obtain ⟨met, htrace, hlabels⟩ := hholds.trace hentry hsample
  refine ⟨met, htrace, ?_⟩
  have hframes := frames_length hlabels
  have hmarker := (marker_mem hlabels).trans (truncated_iff hlimit)
  have hcalls := calls_length_lt_iff sample
  have hvisible := congrArg List.length (visible_eq_take hlimit)
  rw [List.length_take] at hvisible
  rw [← visible_eq_take hlimit, ← hcalls]
  have hle : sample.calls.length ≤ sample.visible.length := List.length_filterMap_le _ _
  constructor
  · rintro ⟨hbound, hiff⟩
    rw [hframes] at hbound
    rw [hmarker] at hiff
    omega
  · intro hcases
    refine ⟨?_, ?_⟩
    · rw [hframes]
      omega
    · rw [hmarker]
      omega

/-- A call of an internal function above two calls of user code, with a limit of
two, on a stack that is deeper. -/
def internalCall : List Action :=
  let usleep : ExecuteData := ⟨some ⟨1, [], none, some (Bytes.ofString "usleep"), false, 0⟩, 0⟩
  [.setMaxDepth 2, .add [usleep, plainCall (Bytes.ofString "f") 3, plainCall (Bytes.ofString "g") 5,
    plainCall (Bytes.ofString "h") 7] 1 10]

theorem limit_respected_iff_internalCall :
    ∃ log entry sample met, Transition.run step (init zero) internalCall = some log ∧
      log.entries[0]? = some entry ∧ (samples 0 internalCall)[0]? = some sample ∧
      log.trace log.frames.length entry.frameIndex = some met ∧ WithinLimit log sample met := by
  obtain ⟨log, hrun, hcheck⟩ := Transition.run_check step (init zero) internalCall
    (fun log => log.entries.length == 1) (by decide)
  have hlength : log.entries.length = 1 := by simpa using hcheck
  have hentry := List.getElem?_eq_getElem (show 0 < log.entries.length by omega)
  obtain ⟨met, htrace, hiff⟩ := limit_respected_iff hrun hentry rfl (by decide)
  exact ⟨log, _, _, met, hrun, hentry, rfl, htrace _ (Nat.le_refl _), hiff.mpr (by decide)⟩

/-- Two calls of user code with a limit of one. -/
def twoCalls : List Action :=
  [.setMaxDepth 1, .add [plainCall (Bytes.ofString "f") 3, plainCall (Bytes.ofString "g") 5] 1 10]

/-- Both calls are in the trace, and it is not marked as truncated. -/
theorem twoCalls_exceed_limit :
    ∃ log entry sample met, Transition.run step (init zero) twoCalls = some log ∧
      log.entries[0]? = some entry ∧ (samples 0 twoCalls)[0]? = some sample ∧
      sample.maxDepth = 1 ∧ log.trace log.frames.length entry.frameIndex = some met ∧
      met.length = 2 ∧ log.marker = none ∧ ¬WithinLimit log sample met := by
  obtain ⟨log, hrun, hcheck⟩ := Transition.run_check step (init zero) twoCalls
    (fun log : Log => decide (log.marker = none ∧ ∃ entry : Entry, entry ∈ log.entries[0]? ∧
      ∃ met ∈ log.trace log.frames.length entry.frameIndex, met.length = 2)) (by decide)
  obtain ⟨hmarker, entry, hentry, met, hmet, hlength⟩ := of_decide_eq_true hcheck
  refine ⟨log, entry, _, met, hrun, hentry, rfl, rfl, hmet, hlength, hmarker, fun hwithin => ?_⟩
  have hframes := hwithin.frames_le
  simp [hmarker, hlength] at hframes

end Excimer.Log
