import Excimer.Log.Table
import Mathlib.Data.List.Forall2

/-!
What a log says about the samples it was given. Following `prev_index` from an
entry leads through one frame for each visible call of user code, innermost
first, and ends in the truncation marker when callers were cut off. This stays
so while the log grows, because its table is only ever extended, and an index
stands for one path.
-/

namespace Excimer

open ParentChain

/-- A call of a user function, with the line that is being executed. -/
structure Call where
  func : ZendFunction
  lineno : UInt32

/-- The filename and the line of a call, as a frame stores them. -/
abbrev Location := Option Bytes × UInt32

def Call.location (call : Call) : Location :=
  (some call.func.filename, call.lineno)

def ExecuteData.call (current : ExecuteData) : Option Call :=
  current.userFunction.map fun func => ⟨func, current.lineno⟩

/-- A stack passed to `excimer_log_add`, with the depth limit at that moment. -/
structure Sample where
  stack : List ExecuteData
  maxDepth : Int
  eventCount : Int
  timestamp : UInt64

namespace Sample

/-- The part of the stack within the limit. -/
def visible (sample : Sample) : List ExecuteData :=
  if sample.maxDepth = 0 then sample.stack
  else sample.stack.take ((max sample.maxDepth 0).toNat + 1)

/-- There are callers beyond the limit. -/
def truncated (sample : Sample) : Bool :=
  decide (sample.maxDepth ≠ 0 ∧ (max sample.maxDepth 0).toNat + 1 < sample.stack.length)

def calls (sample : Sample) : List Call :=
  sample.visible.filterMap ExecuteData.call

def path (sample : Sample) : List Location :=
  sample.calls.map Call.location

end Sample

namespace Log

/-- The samples of a history that starts with a depth limit. -/
def samples : Int → List Action → List Sample
  | _, [] => []
  | maxDepth, .add stack eventCount timestamp :: rest =>
      ⟨stack, maxDepth, eventCount, timestamp⟩ :: samples maxDepth rest
  | _, .setMaxDepth depth :: rest => samples depth rest

/-- The index of the truncation marker, once there is one. -/
def marker (log : Log) : Option Nat :=
  log.reverseFrames.find truncatedName

/-- What a frame on a path says: its filename and line, or nothing when it is
the truncation marker. -/
def label (log : Log) (link : Nat × Frame) : Option Location :=
  if log.marker = some link.1 then none else some (link.2.filename, link.2.lineno)

theorem label_marker {log : Log} {link : Nat × Frame} (hmarker : log.marker = some link.1) :
    log.label link = none := if_pos hmarker

theorem label_user {log : Log} {link : Nat × Frame} (hmarker : log.marker ≠ some link.1) :
    log.label link = some (link.2.filename, link.2.lineno) := if_neg hmarker

/-- The labels that calls and a possible marker leave behind. -/
def labels (calls : List Call) (truncated : Bool) : List (Option Location) :=
  calls.map (fun call => some call.location) ++ if truncated then [none] else []

/-- Following `prev_index` from an index leads along the calls. -/
def Traces (log : Log) (i : Nat) (calls : List Call) (truncated : Bool) : Prop :=
  ∃ chain, log.Path i chain ∧ chain.map log.label = labels calls truncated

section Table

variable {log next : Log}

theorem Extends.frame (hext : Extends log next) {i : Nat} {frame : Frame}
    (hframe : log.frames[i]? = some frame) : next.frames[i]? = some frame := by
  obtain ⟨added, hframes⟩ := hext.frames
  have hlt := (List.getElem?_eq_some_iff.mp hframe).1
  rw [← hframes, List.getElem?_append_left hlt]
  exact hframe

theorem Extends.getFrame (hext : Extends log next) (i : Nat) (frame : Frame)
    (hframe : log.getFrame i = some frame) : next.getFrame i = some frame := by
  obtain ⟨hne, hstored⟩ := getFrame_eq.mp hframe
  exact getFrame_eq.mpr ⟨hne, hext.frame hstored⟩

theorem Extends.marker_iff (hext : Extends log next) {i : Nat} (hlt : i < log.frames.length) :
    next.marker = some i ↔ log.marker = some i :=
  ⟨fun hnext => hext.find_old hnext hlt, fun hlog => hext.find hlog⟩

theorem Extends.label (hext : Extends log next) {link : Nat × Frame}
    (hlt : link.1 < log.frames.length) : next.label link = log.label link := by
  unfold Log.label
  simp only [hext.marker_iff hlt]

/-- Recorded paths survive the growth of the table. -/
theorem Traces.mono {i : Nat} {calls : List Call} {truncated : Bool}
    (htraces : log.Traces i calls truncated) (hext : Extends log next) :
    next.Traces i calls truncated := by
  obtain ⟨chain, hchain, hlabels⟩ := htraces
  refine ⟨chain, hchain.mono hext.getFrame, ?_⟩
  rw [← hlabels]
  apply List.map_congr_left
  intro link hmem
  exact hext.label (hchain.lt hmem)

theorem WellFormed.getFrame_marker (hwf : log.WellFormed) {i : Nat}
    (hmarker : log.marker = some i) :
    log.getFrame i = some truncationFrame := by
  obtain ⟨hne, frame, hframe, hkey⟩ := hwf.key_index truncatedName i hmarker
  obtain rfl := hkey.of_marker rfl
  exact getFrame_eq.mpr ⟨hne, hframe⟩

/-- A frame other than the marker is stored under the key made from it. -/
theorem WellFormed.key_of_not_marker (hwf : log.WellFormed) {i : Nat} {frame : Frame}
    (hframe : log.getFrame i = some frame) (hmarker : log.marker ≠ some i) :
    ∃ filename, frame.filename = some filename ∧
      log.reverseFrames.find (frameKey filename frame.lineno frame.prevIndex) = some i := by
  obtain ⟨hne, hstored⟩ := getFrame_eq.mp hframe
  have hlt := (List.getElem?_eq_some_iff.mp hstored).1
  obtain ⟨key, hfind⟩ := hwf.key_exists i hne hlt
  obtain ⟨-, stored, hsame, hkey⟩ := hwf.key_index key i hfind
  obtain rfl := Option.some.inj (hsame.symm.trans hstored)
  cases hkey with
  | marker => exact absurd hfind hmarker
  | user hname => exact ⟨_, hname, hfind⟩

/-- An index is determined by the labels on its path. -/
theorem WellFormed.index_eq (hwf : log.WellFormed) {i j : Nat} {first second : List (Nat × Frame)}
    (hfirst : log.Path i first) (hsecond : log.Path j second)
    (hlabels : first.map log.label = second.map log.label) : i = j := by
  apply hfirst.start_eq _ hsecond hlabels
  intro i j frame other hi hj hframe hother hlabel hparent
  by_cases hmarker : log.marker = some i
  · by_cases hmarker' : log.marker = some j
    · exact Option.some.inj (hmarker.symm.trans hmarker')
    · rw [label_marker hmarker, label_user hmarker'] at hlabel
      cases hlabel
  · have hmarker' : log.marker ≠ some j := by
      intro hmarker'
      rw [label_user hmarker, label_marker hmarker'] at hlabel
      cases hlabel
    obtain ⟨filename, hname, hfind⟩ := hwf.key_of_not_marker hframe hmarker
    obtain ⟨filename', hname', hfind'⟩ := hwf.key_of_not_marker hother hmarker'
    rw [label_user hmarker, label_user hmarker', Option.some.injEq, Prod.mk.injEq] at hlabel
    obtain ⟨hnames, hlines⟩ := hlabel
    rw [hname, hname', Option.some.injEq] at hnames
    have hprev : frame.prevIndex = other.prevIndex := UInt32.toNat_inj.mp hparent
    rw [hnames, hlines, hprev, hfind'] at hfind
    exact (Option.some.inj hfind).symm

end Table

/-- What recording part of a stack does to a log. Every frame it adds is the
marker or was made for one of the calls. -/
structure Recorded (log : Log) (calls : List Call) (truncated : Bool) (next : Log)
    (index : UInt32) : Prop where
  wellFormed : next.WellFormed
  extends_table : Extends log next
  lt : index.toNat < next.frames.length
  traces : next.Traces index.toNat calls truncated
  added : ∀ i frame, log.frames.length ≤ i → next.frames[i]? = some frame →
    next.marker = some i ∨ ∃ call outer, call :: outer <:+ calls ∧
      frame = userFrame call.func call.lineno frame.prevIndex ∧
      next.Traces i (call :: outer) truncated
  entries : next.entries = log.entries
  maxDepth : next.maxDepth = log.maxDepth
  eventCount : next.eventCount = log.eventCount

section Recording

variable {log mid next : Log} {calls : List Call} {truncated : Bool} {index prevIndex : UInt32}

theorem recorded_nil (hwf : log.WellFormed) : Recorded log [] false log 0 where
  wellFormed := hwf
  extends_table := Extends.refl log
  lt := (List.getElem?_eq_some_iff.mp hwf.reserved).1
  traces := ⟨[], .root, rfl⟩
  added := by
    intro i frame hle hframe
    have hlt := (List.getElem?_eq_some_iff.mp hframe).1
    omega
  entries := rfl
  maxDepth := rfl
  eventCount := rfl

theorem getTruncationMarker_recorded (hwf : log.WellFormed)
    (hrun : log.getTruncationMarker = some (next, index)) : Recorded log [] true next index := by
  have hpos : 0 < log.frames.length := (List.getElem?_eq_some_iff.mp hwf.reserved).1
  have hinterned := lookupOrAppend_interned hwf .marker hpos hrun
  have hmarker : next.marker = some index.toNat := hinterned.found
  have hframe := hinterned.wellFormed.getFrame_marker hmarker
  refine ⟨hinterned.wellFormed, hinterned.extends_table, hinterned.wellFormed.find_lt hmarker, ?_,
    ?_, hinterned.entries, hinterned.maxDepth, hinterned.eventCount⟩
  · refine ⟨[(index.toNat, truncationFrame)], .link (getFrame_eq.mp hframe).1 hframe .root, ?_⟩
    simp [label, hmarker, labels]
  · intro i frame hle hi
    obtain ⟨rfl, -⟩ := hinterned.added i frame hle hi
    exact Or.inl hmarker

/-- A frame stored under the key of a call continues the path of the caller. -/
theorem WellFormed.traces_call (hwf : next.WellFormed) {call : Call} {i : Nat}
    (hfound : next.reverseFrames.find
      (frameKey call.func.filename call.lineno prevIndex) = some i)
    (htraces : next.Traces prevIndex.toNat calls truncated) :
    next.Traces i (call :: calls) truncated := by
  obtain ⟨hne, frame, hframe, hkey⟩ := hwf.key_index _ i hfound
  obtain ⟨hname, hline, hprev⟩ := hkey.of_user rfl
  obtain ⟨chain, hchain, hlabels⟩ := htraces
  have hmarker : next.marker ≠ some i := by
    intro hmarker
    exact frameKey_ne_truncatedName _ _ _ (hwf.key_unique _ _ i hfound hmarker)
  refine ⟨(i, frame) :: chain, .link hne (getFrame_eq.mpr ⟨hne, hframe⟩) ?_, ?_⟩
  · rw [hprev]
    exact hchain
  · simp [label, hmarker, hlabels, labels, hname, hline, Call.location]

/-- Recording one more stack element after its callers. -/
theorem Recorded.recordFrame (hcaller : Recorded log calls truncated mid prevIndex)
    {current : ExecuteData} (hrun : mid.recordFrame current prevIndex = some (next, index)) :
    Recorded log (current.call.toList ++ calls) truncated next index := by
  unfold Log.recordFrame at hrun
  cases hfunc : current.userFunction with
  | none =>
      simp only [hfunc, Option.some.injEq, Prod.mk.injEq] at hrun
      obtain ⟨rfl, rfl⟩ := hrun
      simpa [ExecuteData.call, hfunc] using hcaller
  | some func =>
      simp only [hfunc] at hrun
      have hcall : current.call = some ⟨func, current.lineno⟩ := by simp [ExecuteData.call, hfunc]
      have hkey := keyOf_userFrame func current.lineno prevIndex
      have hinterned := lookupOrAppend_interned hcaller.wellFormed hkey hcaller.lt hrun
      have hext := hinterned.extends_table
      have hpath : next.Traces index.toNat (⟨func, current.lineno⟩ :: calls) truncated :=
        hinterned.wellFormed.traces_call hinterned.found (hcaller.traces.mono hext)
      rw [hcall]
      refine ⟨hinterned.wellFormed, hcaller.extends_table.trans hext,
        hinterned.wellFormed.find_lt hinterned.found, hpath, ?_,
        hinterned.entries.trans hcaller.entries, hinterned.maxDepth.trans hcaller.maxDepth,
        hinterned.eventCount.trans hcaller.eventCount⟩
      intro i frame hle hframe
      rcases Nat.lt_or_ge i mid.frames.length with hlt | hge
      · -- the frame was there before this element was recorded
        obtain ⟨old, hold⟩ : ∃ old, mid.frames[i]? = some old :=
          ⟨_, List.getElem?_eq_getElem hlt⟩
        obtain rfl := Option.some.inj ((hext.frame hold).symm.trans hframe)
        rcases hcaller.added i old hle hold with hmarker | ⟨call, outer, hsuffix, hmade, htraces⟩
        · exact Or.inl (hext.find hmarker)
        · exact Or.inr ⟨call, outer, hsuffix.trans (List.suffix_append _ _), hmade,
            htraces.mono hext⟩
      · obtain ⟨rfl, rfl⟩ := hinterned.added i frame hge hframe
        exact Or.inr ⟨⟨func, current.lineno⟩, calls, List.suffix_refl _, rfl, hpath⟩

/-- How many elements a walk that has come to a depth still looks at. -/
def reach (maxDepth depth : Int) : Nat := (max (maxDepth - depth) 0).toNat + 1

/-- `Sample.visible` for a walk that has come to a depth. -/
def visibleFrom (maxDepth depth : Int) (stack : List ExecuteData) : List ExecuteData :=
  if maxDepth = 0 then stack else stack.take (reach maxDepth depth)

def truncatedFrom (maxDepth depth : Int) (stack : List ExecuteData) : Bool :=
  decide (maxDepth ≠ 0 ∧ reach maxDepth depth < stack.length)

theorem visibleFrom_cut {maxDepth depth : Int} (hcut : maxDepth ≠ 0 ∧ depth ≥ maxDepth)
    (current : ExecuteData) (outer : List ExecuteData) :
    visibleFrom maxDepth depth (current :: outer) = [current] := by
  have hreach : reach maxDepth depth = 1 := by unfold reach; omega
  simp [visibleFrom, hcut.1, hreach]

theorem visibleFrom_cons {maxDepth depth : Int} (hgo : ¬(maxDepth ≠ 0 ∧ depth ≥ maxDepth))
    (current : ExecuteData) (outer : List ExecuteData) :
    visibleFrom maxDepth depth (current :: outer) =
        current :: visibleFrom maxDepth (depth + 1) outer ∧
      truncatedFrom maxDepth depth (current :: outer) =
        truncatedFrom maxDepth (depth + 1) outer := by
  by_cases hzero : maxDepth = 0
  · simp [visibleFrom, truncatedFrom, hzero]
  · have hreach : reach maxDepth depth = reach maxDepth (depth + 1) + 1 := by
      unfold reach
      omega
    simp [visibleFrom, truncatedFrom, hzero, hreach]

theorem findOrAddFrame_recorded (hwf : log.WellFormed) (stack : List ExecuteData) (depth : Int)
    (hrun : log.findOrAddFrame stack depth = some (next, index)) :
    Recorded log ((visibleFrom log.maxDepth depth stack).filterMap ExecuteData.call)
      (truncatedFrom log.maxDepth depth stack) next index := by
  -- on the stack from the inside out; the callers are recorded first
  induction stack generalizing depth next index with
  | nil =>
      simp only [findOrAddFrame, Option.some.injEq, Prod.mk.injEq] at hrun
      obtain ⟨rfl, rfl⟩ := hrun
      simpa [visibleFrom, truncatedFrom] using recorded_nil hwf
  | cons current outer ih =>
      cases outer with
      | nil =>
          have hone := (recorded_nil hwf).recordFrame hrun
          have hvisible : visibleFrom log.maxDepth depth [current] = [current] := by
            simp [visibleFrom, reach]
          have htruncated : truncatedFrom log.maxDepth depth [current] = false := by
            simp [truncatedFrom, reach]
          rw [hvisible, htruncated]
          cases hcall : current.call <;> simpa [hcall] using hone
      | cons prev outer =>
          simp only [findOrAddFrame] at hrun
          obtain ⟨⟨mid, prevIndex⟩, hcaller, hrecord⟩ := Option.bind_eq_some_iff.mp hrun
          by_cases hcut : log.maxDepth ≠ 0 ∧ depth ≥ log.maxDepth
          · rw [if_pos hcut] at hcaller
            have hone := (getTruncationMarker_recorded hwf hcaller).recordFrame hrecord
            have htruncated :
                truncatedFrom log.maxDepth depth (current :: prev :: outer) = true := by
              have hreach : reach log.maxDepth depth = 1 := by unfold reach; omega
              simp [truncatedFrom, hcut.1, hreach]
            rw [visibleFrom_cut hcut, htruncated]
            cases hcall : current.call <;> simpa [hcall] using hone
          · rw [if_neg hcut] at hcaller
            have hmore := (ih (depth + 1) hcaller).recordFrame hrecord
            obtain ⟨hvisible, htruncated⟩ := visibleFrom_cons hcut current (prev :: outer)
            rw [hvisible, htruncated]
            cases hcall : current.call <;> simpa [hcall] using hmore

theorem lookupOrAppend_returns (hwf : log.WellFormed) (hroom : log.frames.length < 2 ^ 32)
    (key : Bytes) (frame : Frame) :
    ∃ next index, log.lookupOrAppend key frame = some (next, index) ∧
      next.frames.length ≤ log.frames.length + 1 := by
  have hsafe : ∀ {n : Nat}, n < 2 ^ 32 → safeUint32 n = some (UInt32.ofNat n) := by
    intro n hn
    rw [safeUint32, if_neg (by omega), Int.toNat_natCast]
  unfold lookupOrAppend
  cases hfind : log.reverseFrames.find key with
  | some i =>
      have hlt := hwf.find_lt hfind
      have hi : i < 2 ^ 32 := by omega
      exact ⟨log, UInt32.ofNat i, by simp only [hsafe hi, Option.map_some], by omega⟩
  | none =>
      exact ⟨log.appendFrame key frame, UInt32.ofNat log.frames.length,
        by simp only [hsafe hroom, Option.map_some], by simp [appendFrame]⟩

theorem recordFrame_returns (hwf : log.WellFormed) (hroom : log.frames.length < 2 ^ 32)
    (current : ExecuteData) (prevIndex : UInt32) :
    ∃ next index, log.recordFrame current prevIndex = some (next, index) ∧
      next.frames.length ≤ log.frames.length + 1 := by
  unfold recordFrame
  cases current.userFunction with
  | none => exact ⟨log, prevIndex, rfl, by omega⟩
  | some func => exact lookupOrAppend_returns hwf hroom _ _

/-- There is no fatal error while the indexes fit into 32 bits. -/
theorem findOrAddFrame_returns (hwf : log.WellFormed) (stack : List ExecuteData) (depth : Int)
    (hroom : log.frames.length + stack.length ≤ 2 ^ 32) :
    ∃ next index, log.findOrAddFrame stack depth = some (next, index) ∧
      next.frames.length ≤ log.frames.length + stack.length := by
  induction stack generalizing depth with
  | nil => exact ⟨log, 0, rfl, by simp⟩
  | cons current outer ih =>
      cases outer with
      | nil =>
          simp only [List.length_singleton] at hroom ⊢
          exact recordFrame_returns hwf (by omega) current 0
      | cons prev outer =>
          simp only [List.length_cons] at hroom ih ⊢
          simp only [findOrAddFrame]
          by_cases hcut : log.maxDepth ≠ 0 ∧ depth ≥ log.maxDepth
          · obtain ⟨mid, prevIndex, hcaller, hmid⟩ :=
              lookupOrAppend_returns hwf (by omega) truncatedName truncationFrame
            have hwf' := (getTruncationMarker_recorded hwf hcaller).wellFormed
            obtain ⟨next, index, hrecord, hnext⟩ :=
              recordFrame_returns hwf' (by omega) current prevIndex
            refine ⟨next, index, ?_, by omega⟩
            rw [if_pos hcut, getTruncationMarker, hcaller, Option.bind_some]
            exact hrecord
          · obtain ⟨mid, prevIndex, hcaller, hmid⟩ := ih (depth + 1) (by omega)
            have hwf' :=
              (findOrAddFrame_recorded hwf (prev :: outer) (depth + 1) hcaller).wellFormed
            obtain ⟨next, index, hrecord, hnext⟩ :=
              recordFrame_returns hwf' (by omega) current prevIndex
            refine ⟨next, index, ?_, by omega⟩
            rw [if_neg hcut, hcaller, Option.bind_some]
            exact hrecord

theorem add_isSome (hwf : log.WellFormed) {stack : List ExecuteData}
    (hroom : log.frames.length + stack.length ≤ 2 ^ 32) (eventCount : Int) (timestamp : UInt64) :
    (log.add stack eventCount timestamp).isSome := by
  obtain ⟨next, index, hrun, -⟩ := findOrAddFrame_returns hwf stack 0 hroom
  rw [add, hrun]
  rfl

end Recording

/-- An entry says about its sample all that it should. -/
structure Records (log : Log) (sample : Sample) (entry : Entry) : Prop where
  eventCount : entry.eventCount = sample.eventCount
  timestamp : entry.timestamp = sample.timestamp
  traces : log.Traces entry.frameIndex.toNat sample.calls sample.truncated

/-- A frame was made for a call of a sample. -/
def MadeFor (log : Log) (history : List Sample) (i : Nat) (frame : Frame) : Prop :=
  ∃ sample ∈ history, ∃ call outer, call :: outer <:+ sample.calls ∧
    frame = userFrame call.func call.lineno frame.prevIndex ∧
    log.Traces i (call :: outer) sample.truncated

theorem add_spec {log next : Log} (hwf : log.WellFormed) {stack : List ExecuteData}
    {eventCount : Int} {timestamp : UInt64}
    (hrun : log.add stack eventCount timestamp = some next) :
    next.WellFormed ∧ Extends log next ∧ next.maxDepth = log.maxDepth ∧
      next.eventCount = log.eventCount + eventCount ∧
      ∃ entry, next.entries = log.entries ++ [entry] ∧
        Records next ⟨stack, log.maxDepth, eventCount, timestamp⟩ entry ∧
        ∀ i frame, log.frames.length ≤ i → next.frames[i]? = some frame →
          next.marker = some i ∨
            MadeFor next [⟨stack, log.maxDepth, eventCount, timestamp⟩] i frame := by
  obtain ⟨⟨table, index⟩, hfind, rfl⟩ := Option.map_eq_some_iff.mp hrun
  have hrecorded := findOrAddFrame_recorded hwf stack 0 hfind
  have hcalls : (visibleFrom log.maxDepth 0 stack).filterMap ExecuteData.call =
      Sample.calls ⟨stack, log.maxDepth, eventCount, timestamp⟩ := by
    simp [Sample.calls, Sample.visible, visibleFrom, reach]
  have htruncated : truncatedFrom log.maxDepth 0 stack =
      Sample.truncated ⟨stack, log.maxDepth, eventCount, timestamp⟩ := by
    simp [Sample.truncated, truncatedFrom, reach]
  rw [hcalls, htruncated] at hrecorded
  have htable := hrecorded.wellFormed
  refine ⟨htable.of_table rfl rfl ?_, ⟨hrecorded.extends_table.frames, hrecorded.extends_table.find,
    hrecorded.extends_table.find_old⟩, hrecorded.maxDepth, ?_, ⟨index, eventCount, timestamp⟩, ?_,
    ⟨rfl, rfl, hrecorded.traces⟩, ?_⟩
  · intro entry hmem
    rcases List.mem_append.mp hmem with hold | hnew
    · exact htable.entry_lt entry hold
    · rw [List.mem_singleton.mp hnew]
      exact hrecorded.lt
  · exact congrArg (· + eventCount) hrecorded.eventCount
  · exact congrArg (· ++ [_]) hrecorded.entries
  · intro i frame hle hframe
    rcases hrecorded.added i frame hle hframe with hmarker | ⟨call, outer, hmade⟩
    · exact Or.inl hmarker
    · exact Or.inr ⟨_, List.mem_singleton_self _, call, outer, hmade⟩

/-- The abstraction relation: the log holds the samples of a history, in order,
and every frame but the marker was made for a call of one of them. -/
structure Holds (log : Log) (history : List Sample) : Prop where
  wellFormed : log.WellFormed
  entries : List.Forall₂ (Records log) history log.entries
  made : ∀ (i : Nat) frame, log.getFrame i = some frame →
    log.marker = some i ∨ MadeFor log history i frame

theorem Holds.records {log : Log} {history : List Sample} (hholds : Holds log history) {k : Nat}
    {entry : Entry} {sample : Sample} (hentry : log.entries[k]? = some entry)
    (hsample : history[k]? = some sample) : Records log sample entry := by
  obtain ⟨hlt, rfl⟩ := List.getElem?_eq_some_iff.mp hentry
  obtain ⟨hlt', rfl⟩ := List.getElem?_eq_some_iff.mp hsample
  exact hholds.entries.get hlt' hlt

theorem init_holds (memory : Log) : Holds (init memory) [] where
  wellFormed := init_wellFormed memory
  entries := .nil
  made := by
    intro i frame hframe
    obtain ⟨hne, hstored⟩ := getFrame_eq.mp hframe
    have hlt := (List.getElem?_eq_some_iff.mp hstored).1
    simp [init] at hlt
    omega

theorem Records.mono {log next : Log} {sample : Sample} {entry : Entry}
    (hrecords : Records log sample entry) (hext : Extends log next) : Records next sample entry :=
  ⟨hrecords.eventCount, hrecords.timestamp, hrecords.traces.mono hext⟩

theorem MadeFor.mono {log next : Log} {history more : List Sample} {i : Nat} {frame : Frame}
    (hmade : MadeFor log history i frame) (hext : Extends log next) (hmore : history ⊆ more) :
    MadeFor next more i frame := by
  obtain ⟨sample, hmem, call, outer, hsuffix, hframe, htraces⟩ := hmade
  exact ⟨sample, hmore hmem, call, outer, hsuffix, hframe, htraces.mono hext⟩

/-- Adding a sample to the log adds it to the history. -/
theorem Holds.add {log next : Log} {history : List Sample} (hholds : Holds log history)
    {stack : List ExecuteData} {eventCount : Int} {timestamp : UInt64}
    (hrun : log.add stack eventCount timestamp = some next) :
    Holds next (history ++ [⟨stack, log.maxDepth, eventCount, timestamp⟩]) := by
  obtain ⟨hwf, hext, -, -, entry, hentries, hrecords, hadded⟩ := add_spec hholds.wellFormed hrun
  refine ⟨hwf, ?_, ?_⟩
  · rw [hentries]
    apply List.rel_append
    · exact hholds.entries.imp fun _ _ hold => hold.mono hext
    · exact .cons hrecords .nil
  · intro i frame hframe
    obtain ⟨hne, hstored⟩ := getFrame_eq.mp hframe
    rcases Nat.lt_or_ge i log.frames.length with hlt | hge
    · have hold := List.getElem?_eq_getElem hlt
      obtain rfl := Option.some.inj ((hext.frame hold).symm.trans hstored)
      rcases hholds.made i _ (getFrame_eq.mpr ⟨hne, hold⟩) with hmarker | hmade
      · exact Or.inl (hext.find hmarker)
      · exact Or.inr (hmade.mono hext (List.subset_append_left _ _))
    · rcases hadded i frame hge hstored with hmarker | hmade
      · exact Or.inl hmarker
      · exact Or.inr (hmade.mono (Extends.refl next) (List.subset_append_right _ _))

theorem Holds.setMaxDepth {log : Log} {history : List Sample} (hholds : Holds log history)
    (depth : Int) : Holds (log.setMaxDepth depth) history := by
  obtain ⟨hwf, hentries, hmade⟩ := hholds
  have hext : Extends log (log.setMaxDepth depth) :=
    ⟨List.prefix_refl _, fun hfind => hfind, fun hfind _ => hfind⟩
  refine ⟨hwf.of_table rfl rfl hwf.entry_lt, hentries.imp fun _ _ hold => hold.mono hext, ?_⟩
  intro i frame hframe
  exact (hmade i frame hframe).imp hext.find fun hold => hold.mono hext (List.Subset.refl _)

theorem Holds.run {log final : Log} {history : List Sample} (hholds : Holds log history)
    {actions : List Action} (hrun : Transition.run step log actions = some final) :
    Holds final (history ++ samples log.maxDepth actions) ∧ Extends log final := by
  induction actions generalizing log history with
  | nil =>
      obtain rfl := Option.some.inj hrun
      simpa [samples] using And.intro hholds (Extends.refl log)
  | cons action rest ih =>
      obtain ⟨next, hstep, hrest⟩ := Transition.run_cons hrun
      cases action with
      | add stack eventCount timestamp =>
          obtain ⟨-, hext, hdepth, -⟩ := add_spec hholds.wellFormed hstep
          obtain ⟨hfinal, hmore⟩ := ih (hholds.add hstep) hrest
          rw [hdepth, List.append_assoc] at hfinal
          exact ⟨hfinal, hext.trans hmore⟩
      | setMaxDepth depth =>
          obtain rfl := Option.some.inj hstep
          obtain ⟨hfinal, hmore⟩ := ih (hholds.setMaxDepth depth) hrest
          exact ⟨hfinal, hmore.frames, hmore.find, hmore.find_old⟩

section Marker

variable {log next : Log} {index prevIndex : UInt32}

theorem marker_appendFrame {filename : Bytes} {lineno : UInt32} {frame : Frame}
    (hnew : log.reverseFrames.find (frameKey filename lineno prevIndex) = none) :
    (log.appendFrame (frameKey filename lineno prevIndex) frame).marker = log.marker := by
  unfold marker
  rw [find_appendFrame hnew, if_neg (frameKey_ne_truncatedName _ _ _).symm]

theorem recordFrame_marker {current : ExecuteData}
    (hrun : log.recordFrame current prevIndex = some (next, index)) : next.marker = log.marker := by
  unfold recordFrame at hrun
  split at hrun
  · obtain ⟨rfl, -⟩ := Prod.mk.inj (Option.some.inj hrun)
    rfl
  · rcases lookupOrAppend_cases hrun with ⟨-, rfl⟩ | ⟨hfind, -, rfl⟩
    · rfl
    · exact marker_appendFrame hfind

/-- A walk that stays within the depth limit makes no truncation marker. -/
theorem findOrAddFrame_marker {stack : List ExecuteData} {depth : Int}
    (hrun : log.findOrAddFrame stack depth = some (next, index))
    (hwithin : truncatedFrom log.maxDepth depth stack = false) : next.marker = log.marker := by
  induction stack generalizing depth next index with
  | nil =>
      obtain ⟨rfl, -⟩ := Prod.mk.inj (Option.some.inj hrun)
      rfl
  | cons current outer ih =>
      cases outer with
      | nil => exact recordFrame_marker hrun
      | cons prev outer =>
          simp only [findOrAddFrame] at hrun
          obtain ⟨⟨mid, callerIndex⟩, hcaller, hrecord⟩ := Option.bind_eq_some_iff.mp hrun
          rw [recordFrame_marker hrecord]
          split at hcaller
          next hcut =>
            have hreach : reach log.maxDepth depth = 1 := by unfold reach; omega
            simp [truncatedFrom, hcut.1, hreach] at hwithin
          next hgo =>
            rw [(visibleFrom_cons hgo current (prev :: outer)).2] at hwithin
            exact ih hcaller hwithin

/-- A path that is cut off ends in the truncation marker. -/
theorem Traces.marker {i : Nat} {calls : List Call} (htraces : log.Traces i calls true) :
    log.marker ≠ none := by
  obtain ⟨chain, -, hlabels⟩ := htraces
  have hmem : none ∈ chain.map log.label := by
    rw [hlabels]
    simp [labels]
  obtain ⟨link, -, hlabel⟩ := List.mem_map.mp hmem
  intro hnone
  rw [label_user (by simp [hnone])] at hlabel
  cases hlabel

theorem add_marker (hwf : log.WellFormed) {stack : List ExecuteData} {eventCount : Int}
    {timestamp : UInt64} (hrun : log.add stack eventCount timestamp = some next) :
    next.marker = none ↔ log.marker = none ∧
      Sample.truncated ⟨stack, log.maxDepth, eventCount, timestamp⟩ = false := by
  obtain ⟨-, hext, -, -, entry, -, hrecords, -⟩ := add_spec hwf hrun
  obtain ⟨⟨table, frameIndex⟩, hfind, rfl⟩ := Option.map_eq_some_iff.mp hrun
  have htruncated : truncatedFrom log.maxDepth 0 stack =
      Sample.truncated ⟨stack, log.maxDepth, eventCount, timestamp⟩ := by
    simp [Sample.truncated, truncatedFrom, reach]
  constructor
  · intro hnone
    refine ⟨?_, ?_⟩
    · cases hold : log.marker with
      | none => rfl
      | some i =>
          have hkept : Log.marker _ = some i := hext.find hold
          rw [hnone] at hkept
          cases hkept
    · rw [← Bool.not_eq_true]
      intro hcut
      have htraces := hrecords.traces
      rw [hcut] at htraces
      exact htraces.marker hnone
  · rintro ⟨hnone, hwithin⟩
    rw [← htruncated] at hwithin
    exact (findOrAddFrame_marker hfind hwithin).trans hnone

/-- There is a truncation marker once a stack was deeper than the limit. -/
theorem run_marker {actions : List Action} (hwf : log.WellFormed)
    (hrun : Transition.run step log actions = some next) :
    next.marker = none ↔ log.marker = none ∧
      ∀ sample ∈ samples log.maxDepth actions, sample.truncated = false := by
  induction actions generalizing log with
  | nil =>
      obtain rfl := Option.some.inj hrun
      simp [samples]
  | cons action rest ih =>
      obtain ⟨mid, hstep, hrest⟩ := Transition.run_cons hrun
      cases action with
      | add stack eventCount timestamp =>
          obtain ⟨hmid, -, hdepth, -⟩ := add_spec hwf hstep
          rw [ih hmid hrest, add_marker hwf hstep, hdepth]
          simp only [samples, List.forall_mem_cons, and_assoc]
      | setMaxDepth depth =>
          obtain rfl := Option.some.inj hstep
          exact ih (hwf.of_table rfl rfl hwf.entry_lt : (log.setMaxDepth depth).WellFormed) hrest

end Marker

theorem labels_eq_iff {calls other : List Call} {truncated truncated' : Bool} :
    labels calls truncated = labels other truncated' ↔
      calls.map Call.location = other.map Call.location ∧ truncated = truncated' := by
  induction calls generalizing other with
  | nil =>
      cases other <;> cases truncated <;> cases truncated' <;> simp [labels]
  | cons call rest ih =>
      cases other with
      | nil => cases truncated' <;> simp [labels]
      | cons call' rest' =>
          have hrest := @ih rest'
          simp only [labels] at hrest
          simp [labels, hrest, and_assoc]

theorem Traces.index_iff {log : Log} (hwf : log.WellFormed) {i j : Nat} {calls other : List Call}
    {truncated truncated' : Bool} (hfirst : log.Traces i calls truncated)
    (hsecond : log.Traces j other truncated') :
    i = j ↔ calls.map Call.location = other.map Call.location ∧ truncated = truncated' := by
  obtain ⟨first, hfirst, hlabels⟩ := hfirst
  obtain ⟨second, hsecond, hlabels'⟩ := hsecond
  rw [← labels_eq_iff, ← hlabels, ← hlabels']
  constructor
  · rintro rfl
    rw [hfirst.unique hsecond]
  · exact hwf.index_eq hfirst hsecond

/-- Following `prev_index` until it is zero. -/
def trace (log : Log) (fuel : Nat) (frameIndex : UInt32) : Option (List (Nat × Frame)) :=
  walk (fun i => log.getFrame i) (fun frame => frame.prevIndex.toNat)
    (fun met i frame => some (met ++ [(i, frame)])) fuel frameIndex.toNat []

theorem Path.length_le {log : Log} (hwf : log.WellFormed) {i : Nat} (hlt : i < log.frames.length)
    {chain : List (Nat × Frame)} (hchain : log.Path i chain) : chain.length ≤ i := by
  obtain ⟨other, hother, hlength⟩ := hwf.grounded.chain (Or.inr hlt)
  rwa [hchain.unique hother]

/-- Following `prev_index` from the entry of a sample, with enough fuel. -/
theorem Holds.trace {log : Log} {history : List Sample} (hholds : Holds log history) {k : Nat}
    {entry : Entry} {sample : Sample} (hentry : log.entries[k]? = some entry)
    (hsample : history[k]? = some sample) :
    ∃ met, (∀ fuel, log.frames.length ≤ fuel → log.trace fuel entry.frameIndex = some met) ∧
      met.map log.label = sample.path.map some ++ if sample.truncated then [none] else [] := by
  obtain ⟨met, hmet, hlabels⟩ := (hholds.records hentry hsample).traces
  refine ⟨met, ?_, ?_⟩
  · intro fuel hfuel
    have hlt := hholds.wellFormed.entry_lt entry (List.mem_of_getElem? hentry)
    have hlength := hmet.length_le hholds.wellFormed hlt
    have hcollect := hmet.walk_collect Prod.mk (show met.length ≤ fuel by omega)
    rwa [List.map_id''] at hcollect
    intro link
    rfl
  · rw [hlabels, labels, Sample.path, List.map_map]
    rfl

/-- After any history, in order, every sample has an entry whose path consists
of the user code within the limit and, exactly when callers were cut off, of the
marker. There is one marker at most, it has no caller, and it keeps its index;
every other frame was made for a call. Entries share an index exactly when their
paths are the same. -/
theorem recorded_paths {memory log : Log} {actions : List Action}
    (hrun : Transition.run step (init memory) actions = some log) :
    log.entries.length = (samples memory.maxDepth actions).length ∧
      (∀ (k : Nat) (entry : Entry) (sample : Sample), log.entries[k]? = some entry →
        (samples memory.maxDepth actions)[k]? = some sample →
        entry.eventCount = sample.eventCount ∧ entry.timestamp = sample.timestamp ∧
          ∃ met, (∀ fuel, log.frames.length ≤ fuel → log.trace fuel entry.frameIndex = some met) ∧
            met.map log.label =
              sample.path.map some ++ if sample.truncated then [none] else []) ∧
      (∀ i : Nat, log.marker = some i →
        ∃ frame, log.getFrame i = some frame ∧ frame = truncationFrame ∧ frame.prevIndex = 0) ∧
      (∀ before after mid, actions = before ++ after →
        Transition.run step (init memory) before = some mid →
        ∀ i, mid.marker = some i → log.marker = some i) ∧
      (∀ (i : Nat) frame, log.getFrame i = some frame → log.marker = some i ∨
        ∃ sample ∈ samples memory.maxDepth actions, ∃ call ∈ sample.calls,
          frame = userFrame call.func call.lineno frame.prevIndex) ∧
      ∀ (k k' : Nat) (entry entry' : Entry) (sample sample' : Sample),
        log.entries[k]? = some entry → log.entries[k']? = some entry' →
        (samples memory.maxDepth actions)[k]? = some sample →
        (samples memory.maxDepth actions)[k']? = some sample' →
        (entry.frameIndex = entry'.frameIndex ↔
          sample.path = sample'.path ∧ sample.truncated = sample'.truncated) := by
  obtain ⟨hholds, -⟩ := (init_holds memory).run hrun
  refine ⟨hholds.entries.length_eq.symm, ?_, ?_, ?_, ?_, ?_⟩
  · intro k entry sample hentry hsample
    have hrecord := hholds.records hentry hsample
    exact ⟨hrecord.eventCount, hrecord.timestamp, hholds.trace hentry hsample⟩
  · intro i hmarker
    exact ⟨truncationFrame, hholds.wellFormed.getFrame_marker hmarker, rfl, rfl⟩
  · intro before after mid hactions hmid i hmarker
    rw [hactions, Transition.run_append, hmid] at hrun
    obtain ⟨hearlier, -⟩ := (init_holds memory).run hmid
    exact (hearlier.run hrun).2.find hmarker
  · intro i frame hframe
    rcases hholds.made i frame hframe with hmarker | ⟨sample, hmem, call, outer, hsuffix, hmade, -⟩
    · exact Or.inl hmarker
    · exact Or.inr ⟨sample, hmem, call, hsuffix.subset List.mem_cons_self, hmade⟩
  · intro k k' entry entry' sample sample' hentry hentry' hsample hsample'
    rw [← UInt32.toNat_inj]
    exact Traces.index_iff hholds.wellFormed (hholds.records hentry hsample).traces
      (hholds.records hentry' hsample').traces

/-- A function of a file `a.php`, executing a line. -/
def plainCall (name : Bytes) (lineno : UInt32) : ExecuteData where
  func := some
    { type := 2, filename := Bytes.ofString "a.php", scope := none, functionName := some name
      isClosure := false, lineStart := 1 }
  lineno := lineno

/-- One stack sampled twice, first with a limit that cuts off its caller. -/
def twoLimits : List Action :=
  let stack := [plainCall (Bytes.ofString "f") 3, ⟨none, 0⟩, plainCall (Bytes.ofString "g") 7]
  [.setMaxDepth 1, .add stack 1 10, .setMaxDepth 0, .add stack 2 20]

theorem recorded_paths_twoLimits :
    ∃ log entry entry', Transition.run step (init zero) twoLimits = some log ∧
      log.entries[0]? = some entry ∧ log.entries[1]? = some entry' ∧
      entry.frameIndex ≠ entry'.frameIndex := by
  obtain ⟨log, hrun, hcheck⟩ := Transition.run_check step (init zero) twoLimits
    (fun log => log.entries.length == 2) (by decide)
  obtain ⟨-, -, -, -, -, hiff⟩ := recorded_paths hrun
  have hlength : log.entries.length = 2 := by simpa using hcheck
  have hfirst := List.getElem?_eq_getElem (show 0 < log.entries.length by omega)
  have hsecond := List.getElem?_eq_getElem (show 1 < log.entries.length by omega)
  refine ⟨log, _, _, hrun, hfirst, hsecond, ?_⟩
  rw [ne_eq, hiff 0 1 _ _ _ _ hfirst hsecond rfl rfl]
  decide

end Log

end Excimer
