import Excimer.Log.Paths
import Mathlib.Data.List.Sort

/-!
The functions that read a log: the collapsed and speedscope formats, the array
of a trace and the aggregation by function. All of them follow `prev_index` and
use what they find without testing it. A null pointer that is followed, an index
out of range and a loop that has used up its fuel are all the result `none`.
-/

namespace Excimer.Log

open ParentChain

/-- `ht[key] += term`, where a missing key is added with the value zero first. -/
def countUp {K : Type*} [DecidableEq K] (table : OrderedMap K Int) (key : K) (term : Int) :
    OrderedMap K Int :=
  (table.add key 0).modify key (· + term)

/-- What `excimer_log_append_no_spaces` appends. -/
def noSpaces (src : Bytes) : Bytes :=
  src.map fun c => if c = 32 ∨ c = 0 then 95 else c

/-- The name of a frame. The strings of the frame are passed through `write`. -/
def nameWith (write : Bytes → Bytes) (frame : Frame) : Option Bytes :=
  if frame.closureLine ≠ 0 then
    frame.filename.map fun filename =>
      Bytes.ofString "\x7bclosure:" ++ write filename ++
        Bytes.ofString "(" ++ Bytes.decimal frame.closureLine.toInt32.toInt ++
        Bytes.ofString ")\x7d"
  else
    match frame.functionName with
    | none => frame.filename.map write
    | some functionName =>
        match frame.className with
        | none => some (write functionName)
        | some className => some (write className ++ Bytes.ofString "::" ++ write functionName)

/-- What `excimer_log_append_frame_name` appends. -/
def frameName (frame : Frame) : Option Bytes := nameWith noSpaces frame

/-- The human-readable name of `excimer_log_aggr_by_func`. -/
def displayName (frame : Frame) : Option Bytes := nameWith id frame

section Collapsed

/-- The array `frame_ptrs` for the trace that starts at an index. -/
def framePtrs (log : Log) (fuel : Nat) (frameIndex : UInt32) : Option (List Frame) :=
  walk (fun i => log.getFrame i) (fun frame => frame.prevIndex.toNat)
    (fun ptrs _ frame => some (ptrs ++ [frame])) fuel frameIndex.toNat []

/-- The names of an array of frames, last first, with semicolons between them. -/
def collapsedLine (ptrs : List Frame) : Option Bytes :=
  let append := fun (state : Bool × Bytes) (frame : Frame) =>
    (frameName frame).map fun name =>
      (false, (if state.1 then state.2 else state.2 ++ Bytes.ofString ";") ++ name)
  (ptrs.reverse.foldlM append (true, [])).map Prod.snd

/-- `excimer_log_format_collapsed` -/
def formatCollapsed (log : Log) (fuel : Nat) : Option Bytes :=
  let frameCounts := log.entries.foldl
    (fun counts entry => countUp counts entry.frameIndex entry.eventCount)
    (OrderedMap.empty : OrderedMap UInt32 Int)
  let addLine := fun (lines : OrderedMap Bytes Int) (group : UInt32 × Int) =>
    (log.framePtrs fuel group.1).bind fun ptrs =>
      (collapsedLine ptrs).map fun line => countUp lines line group.2
  (frameCounts.entries.foldlM addLine OrderedMap.empty).map fun lines =>
    lines.entries.flatMap fun (line, count) =>
      line ++ Bytes.ofString " " ++ Bytes.decimal count ++ Bytes.ofString "\n"

end Collapsed

section Speedscope

/-- The array made by `excimer_log_frame_to_speedscope_array`. -/
structure SpeedscopeFrame where
  name : Bytes
  file : Option Bytes

/-- `excimer_log_frame_to_speedscope_array` -/
def frameToSpeedscopeArray (frame : Frame) : Option SpeedscopeFrame :=
  (frameName frame).map fun name => ⟨name, frame.filename⟩

/-- `excimer_log_get_speedscope_frame_key` -/
def getSpeedscopeFrameKey (frame : Frame) : Option Bytes :=
  (frameName frame).bind fun name => frame.filename.map fun filename => name ++ 0 :: filename

/-- `excimer_log_count_frames`. It reads `frames` without a range check. -/
def countFrames (log : Log) (fuel : Nat) (frameIndex : UInt32) : Option UInt32 :=
  walk (fun i => log.frames[i]?) (fun frame => frame.prevIndex.toNat)
    (fun n _ _ => some (n + 1)) fuel frameIndex.toNat 0

/-- The tables `ht_frames`, `ht_indexes_by_key` and `lp_frame_indexes`. -/
structure SharedFrames where
  frames : List SpeedscopeFrame
  indexesByKey : OrderedMap Bytes Nat
  frameIndexes : List Nat

/-- One turn of the loop that builds the frames array. -/
def addSharedFrame (shared : SharedFrames) (frame : Frame) : Option SharedFrames :=
  (getSpeedscopeFrameKey frame).bind fun key =>
    match shared.indexesByKey.find key with
    | some index => some { shared with frameIndexes := shared.frameIndexes ++ [index] }
    | none =>
        (frameToSpeedscopeArray frame).map fun array =>
          let index := shared.frames.length
          { frames := shared.frames ++ [array]
            indexesByKey := shared.indexesByKey.add key index
            frameIndexes := shared.frameIndexes ++ [index] }

def sharedFrames (log : Log) : Option SharedFrames :=
  (log.frames.drop 1).foldlM addSharedFrame ⟨[], OrderedMap.empty, [0]⟩

/-- The values written in reverse order into an array of a given size. -/
def fillStack (log : Log) (frameIndexes : List Nat) : Nat → Nat → Option (List Nat)
  | 0, _ => some []
  | n + 1, frameIndex =>
      (frameIndexes[frameIndex]?).bind fun value =>
        (log.frames[frameIndex]?).bind fun frame =>
          (fillStack log frameIndexes n frame.prevIndex.toNat).map fun outer => outer ++ [value]

def sampleStack (log : Log) (fuel : Nat) (frameIndexes : List Nat) (entry : Entry) :
    Option (List Nat) :=
  (log.countFrames fuel entry.frameIndex).bind fun numFrames =>
    log.fillStack frameIndexes numFrames.toNat entry.frameIndex.toNat

structure SpeedscopeProfile where
  type : Bytes
  name : Bytes
  unit : Bytes
  startValue : Int
  endValue : Int
  samples : List (List Nat)
  weights : List Int

structure SpeedscopeData where
  schema : Bytes
  exporter : Bytes
  frames : List SpeedscopeFrame
  profiles : List SpeedscopeProfile

/-- `excimer_log_get_speedscope_data`. The product of a weight is taken modulo
2^64 and both it and the difference of the timestamps are read as signed. -/
def getSpeedscopeData (log : Log) (fuel : Nat) : Option SpeedscopeData :=
  log.sharedFrames.bind fun shared =>
    (log.entries.mapM (log.sampleStack fuel shared.frameIndexes)).map fun samples =>
      let firstTimestamp := (log.entries.head?.map Entry.timestamp).getD 0
      let lastTimestamp := (log.entries.getLast?.map Entry.timestamp).getD 0
      { schema := Bytes.ofString "https://www.speedscope.app/file-format-schema.json"
        exporter := Bytes.ofString "Excimer"
        frames := shared.frames
        profiles :=
          [{ type := Bytes.ofString "sampled"
             name := []
             unit := Bytes.ofString "nanoseconds"
             startValue := 0
             endValue := (lastTimestamp - firstTimestamp).toInt64.toInt
             samples := samples
             weights := log.entries.map fun entry =>
               Int.bmod (entry.eventCount * log.period.toNat) (2 ^ 64) }] }

end Speedscope

section Arrays

/-- The array made by `excimer_log_frame_to_array`. A key that is not added is
`none`. -/
structure FrameArray where
  file : Option Bytes
  line : Option UInt32
  class_ : Option Bytes
  function : Option Bytes
  closureLine : Option UInt32
  deriving DecidableEq, Repr

/-- `excimer_log_frame_to_array` -/
def frameToArray (frame : Frame) : FrameArray where
  file := frame.filename
  line := frame.filename.map fun _ => frame.lineno
  class_ := frame.className
  function := frame.functionName
  closureLine := if frame.closureLine ≠ 0 then some frame.closureLine else none

/-- `excimer_log_trace_to_array` -/
def traceToArray (log : Log) (fuel : Nat) (frameIndex : Int) : Option (List FrameArray) :=
  (safeUint32 frameIndex).bind fun frameIndex =>
    walk (fun i => log.getFrame i) (fun frame => frame.prevIndex.toNat)
      (fun trace _ frame => some (trace ++ [frameToArray frame])) fuel frameIndex.toNat []

/-- The information on one function in the result of `excimer_log_aggr_by_func`. -/
structure FuncInfo where
  frame : FrameArray
  self : Int
  inclusive : Int

/-- The state of the loop over the frames of an entry: `ht_result`, the keys of
`ht_unique_names`, and `is_top`. -/
structure Aggregation where
  result : OrderedMap Bytes FuncInfo
  uniqueNames : List Bytes
  isTop : Bool

/-- One turn of the loop over the frames of an entry. -/
def aggrFrame (eventCount : Int) (state : Aggregation) (frame : Frame) : Option Aggregation :=
  (displayName frame).map fun name =>
    let known := state.result.add name ⟨frameToArray frame, 0, 0⟩
    let counted :=
      if state.isTop then
        known.modify name fun info => { info with self := info.self + eventCount }
      else known
    if name ∈ state.uniqueNames then { state with result := counted, isTop := false }
    else
      { result := counted.modify name fun info =>
          { info with inclusive := info.inclusive + eventCount }
        uniqueNames := state.uniqueNames ++ [name]
        isTop := false }

def aggrEntry (log : Log) (fuel : Nat) (result : OrderedMap Bytes FuncInfo) (entry : Entry) :
    Option (OrderedMap Bytes FuncInfo) :=
  (walk (fun i => log.getFrame i) (fun frame => frame.prevIndex.toNat)
    (fun state _ frame => aggrFrame entry.eventCount state frame) fuel entry.frameIndex.toNat
    ⟨result, [], true⟩).map Aggregation.result

/-- `excimer_log_aggr_by_func`. The comparison has nothing to say about functions with
the same count. The order among them, which is left to `zend_hash_sort`, is not
modelled. -/
def aggrByFunc (log : Log) (fuel : Nat) : Option (List (Bytes × FuncInfo)) :=
  (log.entries.foldlM (log.aggrEntry fuel) OrderedMap.empty).map fun result =>
    result.entries.insertionSort fun a b => b.2.inclusive ≤ a.2.inclusive

end Arrays

section Returns

variable {log : Log} {fuel : Nat}

theorem WellFormed.filename_isSome (hwf : log.WellFormed) {i : Nat} {frame : Frame}
    (hframe : log.getFrame i = some frame) : frame.filename.isSome := by
  obtain ⟨hne, hstored⟩ := getFrame_eq.mp hframe
  obtain ⟨key, hfind⟩ := hwf.key_exists i hne (List.getElem?_eq_some_iff.mp hstored).1
  obtain ⟨-, stored, hsame, hkey⟩ := hwf.key_index key i hfind
  obtain rfl := Option.some.inj (hsame.symm.trans hstored)
  exact hkey.filename_isSome

theorem nameWith_isSome (write : Bytes → Bytes) {frame : Frame} (hname : frame.filename.isSome) :
    (nameWith write frame).isSome := by
  unfold nameWith
  split
  · simpa using hname
  · cases frame.functionName with
    | none => simpa using hname
    | some functionName => cases frame.className <;> rfl

theorem mapM_isSome {α β : Type*} {f : α → Option β} {items : List α}
    (hf : ∀ item ∈ items, (f item).isSome) : (items.mapM f).isSome := by
  induction items with
  | nil => rfl
  | cons item rest ih =>
      obtain ⟨value, hvalue⟩ := Option.isSome_iff_exists.mp (hf item List.mem_cons_self)
      obtain ⟨values, hvalues⟩ := Option.isSome_iff_exists.mp
        (ih fun other hmem => hf other (List.mem_cons_of_mem _ hmem))
      simp [List.mapM_cons, hvalue, hvalues]

/-- The chain of an index in range, which the fuel of a loop covers. -/
theorem WellFormed.path (hwf : log.WellFormed) (hfuel : log.frames.length ≤ fuel) {i : Nat}
    (hlt : i < log.frames.length) : ∃ chain, log.Path i chain ∧ chain.length ≤ fuel := by
  obtain ⟨chain, hchain, hlength⟩ := hwf.grounded.chain (Or.inr hlt)
  exact ⟨chain, hchain, by omega⟩

theorem collapsedLine_isSome {ptrs : List Frame} (hnames : ∀ frame ∈ ptrs, frame.filename.isSome) :
    (collapsedLine ptrs).isSome := by
  unfold collapsedLine
  rw [Option.isSome_map]
  apply foldlM_isSome
  intro state frame hmem
  rw [Option.isSome_map]
  exact nameWith_isSome _ (hnames frame (List.mem_reverse.mp hmem))

theorem mem_keys_countUp {K : Type*} [DecidableEq K] {table : OrderedMap K Int} {key other : K}
    {term : Int} (hmem : other ∈ (countUp table key term).keys) :
    other = key ∨ other ∈ table.keys := by
  rw [countUp, OrderedMap.keys_modify] at hmem
  exact OrderedMap.mem_keys_add hmem

theorem mem_keys_counts {entries : List Entry} {counts : OrderedMap UInt32 Int} {key : UInt32}
    (hmem : key ∈ (entries.foldl
      (fun counts entry => countUp counts entry.frameIndex entry.eventCount) counts).keys) :
    key ∈ counts.keys ∨ ∃ entry ∈ entries, entry.frameIndex = key := by
  induction entries generalizing counts with
  | nil => exact Or.inl hmem
  | cons entry rest ih =>
      rcases ih hmem with hcounts | ⟨other, hother, hkey⟩
      · rcases mem_keys_countUp hcounts with heq | hold
        · exact Or.inr ⟨entry, List.mem_cons_self, heq.symm⟩
        · exact Or.inl hold
      · exact Or.inr ⟨other, List.mem_cons_of_mem _ hother, hkey⟩

theorem formatCollapsed_isSome (hwf : log.WellFormed) (hfuel : log.frames.length ≤ fuel) :
    (log.formatCollapsed fuel).isSome := by
  unfold formatCollapsed
  rw [Option.isSome_map]
  apply foldlM_isSome
  intro lines group hmem
  rcases mem_keys_counts (List.mem_map_of_mem hmem) with hempty | ⟨entry, hentry, hkey⟩
  · cases hempty
  · have hlt := hwf.entry_lt entry hentry
    obtain ⟨chain, hchain, hlength⟩ := hwf.path hfuel hlt
    have hptrs := hchain.walk_collect (fun _ frame => frame) hlength
    rw [← hkey, framePtrs, hptrs, Option.bind_some, Option.isSome_map]
    apply collapsedLine_isSome
    intro frame hframe
    obtain ⟨link, hlink, rfl⟩ := List.mem_map.mp hframe
    exact hwf.filename_isSome (hchain.node_of_mem hlink).2

theorem countFrames_eq {frameIndex : UInt32} {chain : List (Nat × Frame)}
    (hchain : log.Path frameIndex.toNat chain) (hlength : chain.length ≤ fuel) :
    log.countFrames fuel frameIndex = some (UInt32.ofNat chain.length) := by
  have hframes : Chain (fun i => log.frames[i]?) (fun frame => frame.prevIndex.toNat)
      frameIndex.toNat chain := hchain.mono fun i frame hframe => (getFrame_eq.mp hframe).2
  have hfold : ∀ (items : List (Nat × Frame)) (n : UInt32),
      items.foldlM (fun n _ => some (n + 1)) n = some (n + UInt32.ofNat items.length) := by
    intro items
    induction items with
    | nil => intro n; simp
    | cons item rest ih =>
        intro n
        simp only [List.foldlM_cons, List.length_cons]
        refine (ih (n + 1)).trans ?_
        rw [UInt32.ofNat_add, UInt32.add_assoc, UInt32.add_comm 1]
        rfl
  rw [countFrames, hframes.walk_eq _ hlength, hfold, UInt32.zero_add]

/-- The counter of `excimer_log_count_frames` does not wrap around. -/
theorem Path.length_toNat {i : UInt32} {chain : List (Nat × Frame)}
    (hchain : log.Path i.toNat chain)
    (hwf : log.WellFormed) (hlt : i.toNat < log.frames.length) :
    (UInt32.ofNat chain.length).toNat = chain.length := by
  have hle := hchain.length_le hwf hlt
  have hindex := i.toNat_lt
  rw [UInt32.toNat_ofNat', Nat.mod_eq_of_lt (by omega)]

theorem fillStack_isSome {frameIndexes : List Nat} {i : Nat} {chain : List (Nat × Frame)}
    (hchain : log.Path i chain) (hlength : log.frames.length ≤ frameIndexes.length) :
    (log.fillStack frameIndexes chain.length i).isSome := by
  induction hchain with
  | root => rfl
  | @link i frame rest hne hframe _ ih =>
      have hstored := (getFrame_eq.mp hframe).2
      have hlt := (List.getElem?_eq_some_iff.mp hstored).1
      have hvalue := List.getElem?_eq_getElem (show i < frameIndexes.length by omega)
      simp only [List.length_cons, fillStack, hvalue, hstored, Option.bind_some, Option.isSome_map]
      exact ih

theorem addSharedFrame_length {shared next : SharedFrames} {frame : Frame}
    (hrun : addSharedFrame shared frame = some next) :
    next.frameIndexes.length = shared.frameIndexes.length + 1 := by
  obtain ⟨key, -, hrun⟩ := Option.bind_eq_some_iff.mp hrun
  cases hfind : shared.indexesByKey.find key with
  | some index =>
      simp only [hfind] at hrun
      obtain rfl := Option.some.inj hrun
      simp
  | none =>
      simp only [hfind] at hrun
      obtain ⟨array, -, rfl⟩ := Option.map_eq_some_iff.mp hrun
      simp

theorem foldl_shared_length {frames : List Frame} {shared final : SharedFrames}
    (hrun : frames.foldlM addSharedFrame shared = some final) :
    final.frameIndexes.length = shared.frameIndexes.length + frames.length := by
  induction frames generalizing shared with
  | nil =>
      obtain rfl := Option.some.inj hrun
      rfl
  | cons frame rest ih =>
      obtain ⟨next, hnext, hrest⟩ := Option.bind_eq_some_iff.mp hrun
      rw [ih hrest, addSharedFrame_length hnext, List.length_cons]
      omega

theorem addSharedFrame_isSome (shared : SharedFrames) {frame : Frame}
    (hname : frame.filename.isSome) : (addSharedFrame shared frame).isSome := by
  obtain ⟨name, hrender⟩ := Option.isSome_iff_exists.mp (nameWith_isSome noSpaces hname)
  obtain ⟨filename, hfilename⟩ := Option.isSome_iff_exists.mp hname
  have hkey : getSpeedscopeFrameKey frame = some (name ++ 0 :: filename) := by
    simp [getSpeedscopeFrameKey, frameName, hrender, hfilename]
  rw [addSharedFrame, hkey, Option.bind_some]
  cases shared.indexesByKey.find (name ++ 0 :: filename) with
  | some index => rfl
  | none => simp [frameToSpeedscopeArray, frameName, hrender]

theorem sharedFrames_spec (hwf : log.WellFormed) :
    ∃ shared, log.sharedFrames = some shared ∧
      log.frames.length ≤ shared.frameIndexes.length := by
  have hsome : (log.sharedFrames).isSome := by
    apply foldlM_isSome
    intro shared frame hmem
    obtain ⟨i, hi⟩ := List.mem_iff_getElem?.mp hmem
    rw [List.getElem?_drop] at hi
    exact addSharedFrame_isSome shared
      (hwf.filename_isSome (getFrame_eq.mpr ⟨Nat.ne_of_gt (Nat.lt_add_right i Nat.one_pos), hi⟩))
  obtain ⟨shared, hshared⟩ := Option.isSome_iff_exists.mp hsome
  have hlength := foldl_shared_length hshared
  simp only [List.length_singleton, List.length_drop] at hlength
  exact ⟨shared, hshared, by omega⟩

theorem getSpeedscopeData_isSome (hwf : log.WellFormed) (hfuel : log.frames.length ≤ fuel) :
    (log.getSpeedscopeData fuel).isSome := by
  obtain ⟨shared, hshared, hindexes⟩ := sharedFrames_spec hwf
  rw [getSpeedscopeData, hshared, Option.bind_some, Option.isSome_map]
  apply mapM_isSome
  intro entry hentry
  have hlt := hwf.entry_lt entry hentry
  obtain ⟨chain, hchain, hlength⟩ := hwf.path hfuel hlt
  rw [sampleStack, countFrames_eq hchain hlength, Option.bind_some, hchain.length_toNat hwf hlt]
  exact fillStack_isSome hchain hindexes

theorem safeUint32_toNat (i : UInt32) : safeUint32 (i.toNat : Int) = some i := by
  have hlt := i.toNat_lt
  unfold safeUint32
  rw [if_neg (by omega), Int.toNat_natCast, UInt32.ofNat_toNat]

theorem traceToArray_eq {frameIndex : UInt32} {chain : List (Nat × Frame)}
    (hchain : log.Path frameIndex.toNat chain) (hlength : chain.length ≤ fuel) :
    log.traceToArray fuel frameIndex.toNat = some (chain.map fun link => frameToArray link.2) := by
  rw [traceToArray, safeUint32_toNat, Option.bind_some]
  exact hchain.walk_collect (fun _ frame => frameToArray frame) hlength

theorem aggrByFunc_isSome (hwf : log.WellFormed) (hfuel : log.frames.length ≤ fuel) :
    (log.aggrByFunc fuel).isSome := by
  unfold aggrByFunc
  rw [Option.isSome_map]
  apply foldlM_isSome
  intro result entry hentry
  have hlt := hwf.entry_lt entry hentry
  unfold aggrEntry
  rw [Option.isSome_map]
  apply hwf.grounded.walk_isSome (Or.inr hlt) (by omega)
  intro state i frame _ hframe
  unfold aggrFrame
  rw [Option.isSome_map]
  exact nameWith_isSome id (hwf.filename_isSome hframe)

/-- The indexes met on a walk along `prev_index`, whether or not they have a
frame. -/
def Met (log : Log) : Nat → Nat → Prop :=
  Relation.ReflTransGen fun i j =>
    i ≠ 0 ∧ ∃ frame, log.frames[i]? = some frame ∧ j = frame.prevIndex.toNat

theorem Met.lt (hwf : log.WellFormed) {i j : Nat} (hmet : log.Met i j)
    (hlt : i < log.frames.length) : j < log.frames.length := by
  induction hmet with
  | refl => exact hlt
  | tail _ hstep ih =>
      obtain ⟨hne, frame, hframe, rfl⟩ := hstep
      have hprev := hwf.prev_lt _ frame hne hframe
      omega

end Returns

/-- Every log that can be built is well formed, and more can be added to it as
long as the indexes fit into 32 bits. No walk from an entry meets a non-zero
index without a frame, and all functions that walk return. -/
theorem representation {memory log : Log} {actions : List Action}
    (hrun : Transition.run step (init memory) actions = some log) :
    log.WellFormed ∧
      (∀ stack eventCount timestamp, log.frames.length + stack.length ≤ 2 ^ 32 →
        (log.add stack eventCount timestamp).isSome) ∧
      (∀ entry ∈ log.entries, ∀ j, log.Met entry.frameIndex.toNat j → j ≠ 0 →
        (log.getFrame j).isSome) ∧
      ∀ fuel, log.frames.length ≤ fuel →
        (log.formatCollapsed fuel).isSome ∧
        (∀ entry ∈ log.entries, (log.countFrames fuel entry.frameIndex).isSome) ∧
        (log.getSpeedscopeData fuel).isSome ∧
        (∀ entry ∈ log.entries, (log.traceToArray fuel entry.frameIndex.toNat).isSome) ∧
        (log.aggrByFunc fuel).isSome := by
  obtain ⟨hholds, -⟩ := (init_holds memory).run hrun
  have hwf := hholds.wellFormed
  refine ⟨hwf, fun stack eventCount timestamp hroom => add_isSome hwf hroom eventCount timestamp,
    ?_, ?_⟩
  · intro entry hentry j hmet hne
    have hlt := hmet.lt hwf (hwf.entry_lt entry hentry)
    exact Option.isSome_iff_exists.mpr
      ⟨_, getFrame_eq.mpr ⟨hne, List.getElem?_eq_getElem hlt⟩⟩
  · intro fuel hfuel
    refine ⟨formatCollapsed_isSome hwf hfuel, ?_, getSpeedscopeData_isSome hwf hfuel, ?_,
      aggrByFunc_isSome hwf hfuel⟩
    · intro entry hentry
      obtain ⟨chain, hchain, hlength⟩ := hwf.path hfuel (hwf.entry_lt entry hentry)
      rw [countFrames_eq hchain hlength]
      rfl
    · intro entry hentry
      obtain ⟨chain, hchain, hlength⟩ := hwf.path hfuel (hwf.entry_lt entry hentry)
      rw [traceToArray_eq hchain hlength]
      rfl

theorem representation_twoLimits :
    ∃ log, Transition.run step (init zero) twoLimits = some log ∧ log.frames.length = 5 ∧
      (log.formatCollapsed 5).isSome ∧ (log.getSpeedscopeData 5).isSome := by
  obtain ⟨log, hrun, hcheck⟩ := Transition.run_check step (init zero) twoLimits
    (fun log => log.frames.length == 5) (by decide)
  have hlength : log.frames.length = 5 := by simpa using hcheck
  obtain ⟨-, -, -, hexport⟩ := representation hrun
  obtain ⟨hcollapsed, -, hspeedscope, -⟩ := hexport 5 (by omega)
  exact ⟨log, hrun, hlength, hcollapsed, hspeedscope⟩

end Excimer.Log
