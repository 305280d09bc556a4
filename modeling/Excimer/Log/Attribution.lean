import Excimer.Log.Export

/-!
Which function a trace blames. The key of a frame does not contain the class,
the function name and the start line of a closure, so a frame that was recorded
for one function also serves a later sample of another function that executes
the same line and is called from the same place. Traces name the right functions
exactly when this never happens in the history of the log.
-/

namespace Excimer.Log

open ParentChain

/-- What a trace says about the function of an element. -/
def FrameArray.subject (element : FrameArray) : Option Bytes × Option Bytes × Option UInt32 :=
  (element.class_, element.function, element.closureLine)

/-- What a trace should say about the function of a call. -/
def subjectOf (call : Call) : Option Bytes × Option Bytes × Option UInt32 :=
  (frameToArray (userFrame call.func call.lineno 0)).subject

/-- The trace of an entry names the functions that its sample had called. The
elements after those of the calls are the truncation marker. -/
def Attributed (log : Log) (entry : Entry) (sample : Sample) : Prop :=
  ∀ fuel, log.frames.length ≤ fuel →
    ∃ elements, log.traceToArray fuel entry.frameIndex.toNat = some elements ∧
      ∀ (j : Nat) (element : FrameArray) (call : Call), elements[j]? = some element →
        sample.calls[j]? = some call → element.subject = subjectOf call

/-- Calls with the same locations along their callers are calls of the same
function. -/
def Unambiguous (history : List Sample) : Prop :=
  ∀ sample ∈ history, ∀ sample' ∈ history, ∀ call outer call' outer',
    call :: outer <:+ sample.calls → call' :: outer' <:+ sample'.calls →
    (call :: outer).map Call.location = (call' :: outer').map Call.location →
    sample.truncated = sample'.truncated → subjectOf call = subjectOf call'

/-- The frame that a path has for one of the calls it was recorded for. -/
theorem Path.at_call {log : Log} {start : Nat} {chain : List (Nat × Frame)}
    {before outer : List Call} {call : Call} {truncated : Bool} (hchain : log.Path start chain)
    (hlabels : chain.map log.label = labels (before ++ call :: outer) truncated) :
    ∃ i frame, chain[before.length]? = some (i, frame) ∧ log.getFrame i = some frame ∧
      log.marker ≠ some i ∧ log.Traces i (call :: outer) truncated := by
  induction before generalizing start chain with
  | nil =>
      cases hchain with
      | root => cases hlabels
      | @link _ frame rest hne hframe hrest =>
          refine ⟨start, frame, rfl, hframe, ?_, _, .link hne hframe hrest, hlabels⟩
          intro hmarker
          have hhead := (List.cons.inj hlabels).1
          rw [label_marker hmarker] at hhead
          cases hhead
  | cons first before ih =>
      cases hchain with
      | root => cases hlabels
      | link _ _ hrest => exact ih hrest (List.cons.inj hlabels).2

theorem subject_of_made {call : Call} {frame : Frame}
    (hmade : frame = userFrame call.func call.lineno frame.prevIndex) :
    (frameToArray frame).subject = subjectOf call := by
  rw [hmade]
  rfl

theorem Records.trace_at {log : Log} (hwf : log.WellFormed) {entry : Entry} {sample : Sample}
    (hentry : entry ∈ log.entries) (hrecords : Records log sample entry) :
    ∃ elements, (∀ fuel, log.frames.length ≤ fuel →
        log.traceToArray fuel entry.frameIndex.toNat = some elements) ∧
      ∀ before call outer, sample.calls = before ++ call :: outer →
        ∃ (i : Nat) (frame : Frame), elements[before.length]? = some (frameToArray frame) ∧
          log.getFrame i = some frame ∧ log.marker ≠ some i ∧
          log.Traces i (call :: outer) sample.truncated := by
  obtain ⟨chain, hchain, hlabels⟩ := hrecords.traces
  refine ⟨chain.map fun link => frameToArray link.2, ?_, ?_⟩
  · intro fuel hfuel
    have hlength := hchain.length_le hwf (hwf.entry_lt entry hentry)
    have hlt := hwf.entry_lt entry hentry
    exact traceToArray_eq hchain (by omega)
  · intro before call outer hcalls
    rw [hcalls] at hlabels
    obtain ⟨i, frame, hat, hframe, hmarker, htraces⟩ := hchain.at_call hlabels
    exact ⟨i, frame, by simp [hat], hframe, hmarker, htraces⟩

theorem Holds.frame_of_attributed {log : Log} {history : List Sample} (hholds : Holds log history)
    (hall : ∀ (k : Nat) (entry : Entry) (sample : Sample), log.entries[k]? = some entry →
      history[k]? = some sample → Attributed log entry sample)
    {sample : Sample} (hsample : sample ∈ history) {call : Call} {outer : List Call}
    (hcalls : call :: outer <:+ sample.calls) :
    ∃ (i : Nat) (frame : Frame), log.getFrame i = some frame ∧
      log.Traces i (call :: outer) sample.truncated ∧
      (frameToArray frame).subject = subjectOf call := by
  obtain ⟨k, hk⟩ := List.mem_iff_getElem?.mp hsample
  have hlt : k < log.entries.length := by
    rw [← hholds.entries.length_eq]
    exact (List.getElem?_eq_some_iff.mp hk).1
  have hentry := List.getElem?_eq_getElem hlt
  obtain ⟨elements, htrace, hat⟩ :=
    (hholds.records hentry hk).trace_at hholds.wellFormed (List.mem_of_getElem? hentry)
  obtain ⟨others, hothers, hright⟩ := hall k _ sample hentry hk log.frames.length (Nat.le_refl _)
  obtain rfl := Option.some.inj ((htrace _ (Nat.le_refl _)).symm.trans hothers)
  obtain ⟨before, hbefore⟩ := hcalls
  obtain ⟨i, frame, hmet, hframe, -, htraces⟩ := hat before call outer hbefore.symm
  have hcall : sample.calls[before.length]? = some call := by
    rw [← hbefore]
    simp
  exact ⟨i, frame, hframe, htraces, hright before.length _ call hmet hcall⟩

/-- The traces of a log name the right functions exactly when its history has
no two functions at the same place. -/
theorem attributed_iff {memory log : Log} {actions : List Action}
    (hrun : Transition.run step (init memory) actions = some log) :
    (∀ (k : Nat) (entry : Entry) (sample : Sample), log.entries[k]? = some entry →
      (samples memory.maxDepth actions)[k]? = some sample → Attributed log entry sample) ↔
    Unambiguous (samples memory.maxDepth actions) := by
  obtain ⟨hholds, -⟩ := (init_holds memory).run hrun
  have hwf := hholds.wellFormed
  constructor
  · intro hall sample hsample sample' hsample' call outer call' outer' hcalls hcalls' hpath htrunc
    obtain ⟨i, frame, hframe, htraces, hsubject⟩ :=
      hholds.frame_of_attributed hall hsample hcalls
    obtain ⟨i', frame', hframe', htraces', hsubject'⟩ :=
      hholds.frame_of_attributed hall hsample' hcalls'
    obtain rfl := (Traces.index_iff hwf htraces htraces').mpr ⟨hpath, htrunc⟩
    obtain rfl := Option.some.inj (hframe.symm.trans hframe')
    rw [← hsubject, hsubject']
  · intro hunamb k entry sample hentry hsample fuel hfuel
    obtain ⟨elements, htrace, hat⟩ :=
      (hholds.records hentry hsample).trace_at hwf (List.mem_of_getElem? hentry)
    refine ⟨elements, htrace fuel hfuel, ?_⟩
    intro j element call helement hcall
    obtain ⟨before, outer, hcalls, rfl⟩ : ∃ before outer,
        sample.calls = before ++ call :: outer ∧ before.length = j := by
      obtain ⟨hlt, rfl⟩ := List.getElem?_eq_some_iff.mp hcall
      exact ⟨sample.calls.take j, sample.calls.drop (j + 1), by simp, by simp; omega⟩
    obtain ⟨i, frame, hmet, hframe, hmarker, htraces⟩ := hat before call outer hcalls
    obtain rfl := Option.some.inj (hmet.symm.trans helement)
    -- the frame was made for an earlier call at the same place
    obtain ⟨first, hfirst, made, callers, hsuffix, hmade, hsame⟩ :=
      (hholds.made i frame hframe).resolve_left hmarker
    obtain ⟨hpath, htrunc⟩ := (Traces.index_iff hwf hsame htraces).mp rfl
    rw [subject_of_made hmade]
    exact hunamb first hfirst sample (List.mem_of_getElem? hsample) made callers call outer hsuffix
      ⟨before, hcalls.symm⟩ hpath htrunc

/-- Two functions on one line, called from one line. -/
def sameLine : List Action :=
  [.add [plainCall (Bytes.ofString "f") 1, plainCall (Bytes.ofString "main") 1] 1 10,
   .add [plainCall (Bytes.ofString "g") 1, plainCall (Bytes.ofString "main") 1] 1 20]

def fTrace : List FrameArray :=
  [⟨some (Bytes.ofString "a.php"), some 1, none, some (Bytes.ofString "f"), none⟩,
   ⟨some (Bytes.ofString "a.php"), some 1, none, some (Bytes.ofString "main"), none⟩]

/-- The second sample was taken in `g`, and its trace says that it was `f`. -/
theorem trace_misattributed :
    ∃ log entry sample, Transition.run step (init zero) sameLine = some log ∧
      log.entries[1]? = some entry ∧ (samples 0 sameLine)[1]? = some sample ∧
      sample.calls.map (fun call => call.func.functionName) =
        [some (Bytes.ofString "g"), some (Bytes.ofString "main")] ∧
      log.traceToArray 3 entry.frameIndex.toNat = some fTrace ∧
      ¬Attributed log entry sample := by
  obtain ⟨log, hrun, hcheck⟩ := Transition.run_check step (init zero) sameLine
    (fun log => decide (log.frames.length = 3 ∧ (log.entries[1]?).bind
      (fun entry => log.traceToArray 3 entry.frameIndex.toNat) = some fTrace)) (by decide)
  obtain ⟨hlength, htrace⟩ := of_decide_eq_true hcheck
  obtain ⟨entry, hentry, htrace⟩ := Option.bind_eq_some_iff.mp htrace
  refine ⟨log, entry, _, hrun, hentry, rfl, by decide, htrace, ?_⟩
  intro hattributed
  obtain ⟨elements, helements, hright⟩ := hattributed 3 (by omega)
  obtain rfl := Option.some.inj (htrace.symm.trans helements)
  exact absurd (hright 0 _ _ rfl rfl) (by decide)

theorem suffix_singleton {c call : Call} {outer : List Call} (hsuffix : call :: outer <:+ [c]) :
    call = c := by
  rcases List.suffix_cons_iff.mp hsuffix with heq | hnil
  · exact (List.cons.inj heq).1
  · cases List.suffix_nil.mp hnil

/-- Two functions on different lines. -/
def otherLine : List Action :=
  [.add [plainCall (Bytes.ofString "f") 1] 1 10, .add [plainCall (Bytes.ofString "g") 2] 1 20]

theorem attributed_iff_otherLine :
    ∃ log, Transition.run step (init zero) otherLine = some log ∧
      ∀ (k : Nat) (entry : Entry) (sample : Sample), log.entries[k]? = some entry →
        (samples 0 otherLine)[k]? = some sample → Attributed log entry sample := by
  obtain ⟨log, hrun, -⟩ := Transition.run_check step (init zero) otherLine
    (fun log => log.entries.length == 2) (by decide)
  refine ⟨log, hrun, (attributed_iff hrun).mpr ?_⟩
  intro sample hsample sample' hsample' call outer call' outer' hcalls hcalls' hpath _
  have hlocation : call.location = call'.location := (List.cons.inj hpath).1
  simp only [zero, otherLine, samples, List.mem_cons, List.not_mem_nil, or_false]
    at hsample hsample'
  rcases hsample with rfl | rfl <;> rcases hsample' with rfl | rfl <;>
    obtain rfl := suffix_singleton hcalls <;> obtain rfl := suffix_singleton hcalls'
  · rfl
  · exact absurd hlocation (by decide)
  · exact absurd hlocation (by decide)
  · rfl

end Excimer.Log
