import Excimer.Lib.Lists
import Excimer.Lib.Tally
import Excimer.Log.Export

/-!
The collapsed format as a grouping of the entries. `excimer_log_format_collapsed`
groups twice, by frame index and then by the text of the stack, and writes the
frames of each stack into one buffer that it keeps for the next. What it prints
is what grouping the entries by the text at once would print.
-/

namespace Excimer.Log

open ParentChain OrderedMap

/-- The names of a stack, outermost first, with semicolons between them. -/
def joinNames (names : List Bytes) : Bytes :=
  [(59 : UInt8)].intercalate names

/-- The rendered names of the frames of an entry, outermost first. -/
def Renders (log : Log) (entry : Entry) (names : List Bytes) : Prop :=
  ∃ chain, log.Path entry.frameIndex.toNat chain ∧
    chain.reverse.map (fun link => frameName link.2) = names.map some

/-- One line of the output. -/
def printLine (line : Bytes) (count : Int) : Bytes :=
  line ++ Bytes.ofString " " ++ Bytes.decimal count ++ Bytes.ofString "\n"

section Line

theorem appendNames_eq {frames : List Frame} {names : List Bytes} (text : Bytes)
    (hnames : List.Forall₂ (fun frame name => frameName frame = some name) frames names) :
    (frames.foldlM (fun (state : Bool × Bytes) frame => (frameName frame).map fun name =>
      (false, (if state.1 then state.2 else state.2 ++ Bytes.ofString ";") ++ name))
      (false, text)) = some (false, text ++ names.flatMap fun name => 59 :: name) := by
  induction hnames generalizing text with
  | nil => simp
  | cons hname _ ih =>
      simp only [List.foldlM_cons, hname, Option.map_some, Option.bind_eq_bind,
        Option.bind_some, Bool.false_eq_true, if_false]
      rw [ih]
      have hsep : Bytes.ofString ";" = [59] := by decide
      simp [hsep]

theorem joinNames_cons (name : Bytes) (rest : List Bytes) :
    joinNames (name :: rest) = name ++ rest.flatMap fun name => 59 :: name := by
  induction rest generalizing name with
  | nil => simp [joinNames]
  | cons second rest ih =>
      have hsecond := ih second
      simp only [joinNames] at hsecond ⊢
      simp [List.intercalate_cons_cons, hsecond]

theorem collapsedLine_eq {ptrs : List Frame} {names : List Bytes}
    (hnames : List.Forall₂ (fun frame name => frameName frame = some name) ptrs.reverse names) :
    collapsedLine ptrs = some (joinNames names) := by
  unfold collapsedLine
  generalize ptrs.reverse = frames at hnames
  cases hnames with
  | nil => simp [joinNames]
  | @cons frame name frames rest hname hrest =>
      simp only [List.foldlM_cons, hname, Option.map_some, Option.bind_eq_bind,
        Option.bind_some, if_true, List.nil_append]
      rw [appendNames_eq name hrest, Option.map_some, joinNames_cons]

end Line

section Render

variable {log : Log} {fuel : Nat}

theorem WellFormed.renders (hwf : log.WellFormed) {entry : Entry} (hentry : entry ∈ log.entries) :
    ∃ names, log.Renders entry names := by
  obtain ⟨chain, hchain, -⟩ := hwf.path (Nat.le_refl _) (hwf.entry_lt entry hentry)
  refine ⟨chain.reverse.map fun link => (frameName link.2).getD [], chain, hchain, ?_⟩
  rw [List.map_map]
  apply List.map_congr_left
  intro link hlink
  have hframe := (hchain.node_of_mem (List.mem_reverse.mp hlink)).2
  obtain ⟨name, hname⟩ := Option.isSome_iff_exists.mp
    (nameWith_isSome noSpaces (hwf.filename_isSome hframe))
  have hname : frameName link.2 = some name := hname
  simp [hname]

theorem WellFormed.renders_all (hwf : log.WellFormed) :
    ∃ rendered, List.Forall₂ log.Renders log.entries rendered :=
  List.exists_forall₂ fun _ hentry => hwf.renders hentry

theorem framePtrs_eq (hwf : log.WellFormed) (hfuel : log.frames.length ≤ fuel) {entry : Entry}
    (hentry : entry ∈ log.entries) {chain : List (Nat × Frame)}
    (hchain : log.Path entry.frameIndex.toNat chain) :
    log.framePtrs fuel entry.frameIndex = some (chain.map Prod.snd) := by
  have hlt := hwf.entry_lt entry hentry
  have hlength := hchain.length_le hwf hlt
  exact hchain.walk_collect (fun _ frame => frame) (by omega)

/-- The text of the stack that starts at an index. -/
def lineAt (log : Log) (fuel : Nat) (frameIndex : UInt32) : Option Bytes :=
  (log.framePtrs fuel frameIndex).bind collapsedLine

theorem Renders.lineAt {entry : Entry} {names : List Bytes} (hrenders : log.Renders entry names)
    (hwf : log.WellFormed) (hfuel : log.frames.length ≤ fuel) (hentry : entry ∈ log.entries) :
    log.lineAt fuel entry.frameIndex = some (joinNames names) := by
  obtain ⟨chain, hchain, hnames⟩ := hrenders
  rw [Log.lineAt, framePtrs_eq hwf hfuel hentry hchain, Option.bind_some]
  apply collapsedLine_eq
  apply List.Forall₂.of_map_some
  rw [← hnames, ← List.map_reverse, List.map_map]
  rfl

end Render

section Grouping

variable {log : Log} {fuel : Nat}

/-- The table `ht_lines` when all lines have been added. -/
def lineCounts (log : Log) (fuel : Nat) : Option (OrderedMap Bytes Int) :=
  let frameCounts := log.entries.foldl
    (fun counts entry => countUp counts entry.frameIndex entry.eventCount)
    (OrderedMap.empty : OrderedMap UInt32 Int)
  frameCounts.entries.foldlM (fun (lines : OrderedMap Bytes Int) (group : UInt32 × Int) =>
    (log.framePtrs fuel group.1).bind fun ptrs =>
      (collapsedLine ptrs).map fun line => countUp lines line group.2) OrderedMap.empty

theorem formatCollapsed_lines (log : Log) (fuel : Nat) :
    log.formatCollapsed fuel =
      (log.lineCounts fuel).map fun lines =>
        lines.entries.flatMap fun line => printLine line.1 line.2 := rfl

theorem foldlM_tally {K L : Type*} [DecidableEq L] {key : K → Option L} {known : K → L}
    {items : List (K × Int)} (hkey : ∀ item ∈ items, key item.1 = some (known item.1))
    (table : OrderedMap L Int) :
    items.foldlM (fun m item => (key item.1).map fun k => countUp m k item.2) table =
      some (items.foldl (fun m item => m.bump (known item.1) item.2) table) := by
  induction items generalizing table with
  | nil => rfl
  | cons item rest ih =>
      rw [List.foldlM_cons, hkey item List.mem_cons_self]
      exact ih (fun other hmem => hkey other (List.mem_cons_of_mem _ hmem)) _

/-- The texts of the stacks with the counts of their entries. -/
def countedLines (log : Log) (rendered : List (List Bytes)) : List (Bytes × Int) :=
  (rendered.map joinNames).zip (log.entries.map Entry.eventCount)

theorem zip_lines {entries : List Entry} {rendered : List (List Bytes)} {known : UInt32 → Bytes}
    (hknown : List.Forall₂ (fun entry names => known entry.frameIndex = joinNames names)
      entries rendered) :
    (rendered.map joinNames).zip (entries.map Entry.eventCount) =
      entries.map fun entry => (known entry.frameIndex, entry.eventCount) := by
  induction hknown with
  | nil => rfl
  | cons hhead _ ih => simp [ih, hhead]

theorem lineAt_all (hwf : log.WellFormed) (hfuel : log.frames.length ≤ fuel)
    {rendered : List (List Bytes)} (hrendered : List.Forall₂ log.Renders log.entries rendered) :
    List.Forall₂ (fun entry names => log.lineAt fuel entry.frameIndex = some (joinNames names))
      log.entries rendered := by
  have hboth := (List.forall₂_and_left _ _).mpr
    ⟨fun (entry : Entry) (hmem : entry ∈ log.entries) => hmem, hrendered⟩
  exact hboth.imp fun entry names h => h.2.lineAt hwf hfuel h.1

/-- Grouping by frame index first makes no difference to the lines. -/
theorem lineCounts_eq (hwf : log.WellFormed) (hfuel : log.frames.length ≤ fuel)
    {rendered : List (List Bytes)} (hrendered : List.Forall₂ log.Renders log.entries rendered) :
    log.lineCounts fuel = some (tally (log.countedLines rendered)) := by
  let known (index : UInt32) : Bytes := (log.lineAt fuel index).getD []
  let indexed := log.entries.map fun entry => (entry.frameIndex, entry.eventCount)
  have hlines := lineAt_all hwf hfuel hrendered
  have hkey : ∀ group ∈ (tally indexed).entries,
      log.lineAt fuel group.1 = some (known group.1) := by
    intro group hmem
    have hkeys := mem_keys_tally.mp (List.mem_map_of_mem hmem)
    rw [List.map_map] at hkeys
    obtain ⟨entry, hentry, heq⟩ := List.mem_map.mp hkeys
    have heq : entry.frameIndex = group.1 := heq
    obtain ⟨names, -, hrenders⟩ := hrendered.exists_right hentry
    have hline := hrenders.lineAt hwf hfuel hentry
    rw [heq] at hline
    simp only [known, hline, Option.getD_some]
  have hcounts : log.entries.foldl
      (fun counts entry => countUp counts entry.frameIndex entry.eventCount) OrderedMap.empty =
        tally indexed := by
    rw [tally, List.foldl_map]
    rfl
  have hbody : log.lineCounts fuel = (tally indexed).entries.foldlM
      (fun m item => (log.lineAt fuel item.1).map fun k => countUp m k item.2)
      OrderedMap.empty := by
    rw [lineCounts, hcounts]
    congr 1
    funext lines group
    rw [lineAt, Option.map_bind]
    rfl
  have hregroup := tally_regroup known indexed
  rw [tally, List.foldl_map, List.map_map] at hregroup
  have hknown : List.Forall₂ (fun entry names => known entry.frameIndex = joinNames names)
      log.entries rendered := by
    apply hlines.imp
    intro entry names hline
    simp only [known, hline, Option.getD_some]
  rw [hbody, foldlM_tally hkey, countedLines, zip_lines hknown]
  exact congrArg some hregroup

end Grouping

section Buffer

variable {log : Log} {fuel : Nat}

/-- `frame_ptrs[num_frames] = frame`, where the buffer grows by one element when
it is full. There is no result for a position outside of the buffer. -/
def storePtr (buffer : List Frame) (numFrames : Nat) (frame : Frame) : Option (List Frame) :=
  let grown := if numFrames ≥ buffer.length then buffer ++ [frame] else buffer
  if numFrames < grown.length then some (grown.set numFrames frame) else none

/-- The loop that fills the buffer, with the number of frames it has written. -/
def fillPtrs (log : Log) (fuel : Nat) (frameIndex : UInt32) (buffer : List Frame) :
    Option (List Frame × Nat) :=
  walk (fun i => log.getFrame i) (fun frame => frame.prevIndex.toNat)
    (fun state _ frame => (storePtr state.1 state.2 frame).map fun next => (next, state.2 + 1))
    fuel frameIndex.toNat (buffer, 0)

/-- `excimer_log_format_collapsed` with the one buffer `frame_ptrs` that all
stacks share. -/
def formatCollapsedBuffer (log : Log) (fuel : Nat) : Option Bytes :=
  let frameCounts := log.entries.foldl
    (fun counts entry => countUp counts entry.frameIndex entry.eventCount)
    (OrderedMap.empty : OrderedMap UInt32 Int)
  let addLine := fun (state : List Frame × OrderedMap Bytes Int) (group : UInt32 × Int) =>
    (log.fillPtrs fuel group.1 state.1).bind fun (buffer, numFrames) =>
      (collapsedLine (buffer.take numFrames)).map fun line =>
        (buffer, countUp state.2 line group.2)
  (frameCounts.entries.foldlM addLine ([], OrderedMap.empty)).map fun state =>
    state.2.entries.flatMap fun line => printLine line.1 line.2

theorem storePtr_spec {buffer : List Frame} {numFrames : Nat} (hle : numFrames ≤ buffer.length)
    (frame : Frame) :
    ∃ next, storePtr buffer numFrames frame = some next ∧ numFrames + 1 ≤ next.length ∧
      next.take (numFrames + 1) = buffer.take numFrames ++ [frame] := by
  rcases Nat.lt_or_eq_of_le hle with hlt | rfl
  · refine ⟨buffer.set numFrames frame, ?_, by rw [List.length_set]; exact hlt, ?_⟩
    · simp [storePtr, Nat.not_le.mpr hlt, hlt]
    · rw [List.take_set, List.take_succ_eq_append_getElem hlt, List.set_append_right] <;>
        simp [Nat.min_eq_left hle]
  · refine ⟨buffer ++ [frame], ?_, by simp, ?_⟩
    · simp [storePtr]
    · simp

/-- Whatever the buffer held before, its first cells are overwritten. -/
theorem storePtrs_spec (chain : List (Nat × Frame)) {buffer : List Frame} {numFrames : Nat}
    (hle : numFrames ≤ buffer.length) :
    ∃ next, chain.foldlM (fun (state : List Frame × Nat) link =>
        (storePtr state.1 state.2 link.2).map fun next => (next, state.2 + 1)) (buffer, numFrames) =
          some (next, numFrames + chain.length) ∧
      numFrames + chain.length ≤ next.length ∧
      next.take (numFrames + chain.length) = buffer.take numFrames ++ chain.map Prod.snd := by
  induction chain generalizing buffer numFrames with
  | nil => exact ⟨buffer, rfl, by simpa using hle, by simp⟩
  | cons link rest ih =>
      obtain ⟨mid, hmid, hroom, htake⟩ := storePtr_spec hle link.2
      obtain ⟨next, hnext, hlength, hfinal⟩ := ih hroom
      have hcount : numFrames + (link :: rest).length = numFrames + 1 + rest.length := by
        rw [List.length_cons]
        omega
      refine ⟨next, ?_, by rw [hcount]; exact hlength, ?_⟩
      · rw [List.foldlM_cons, hmid, hcount]
        exact hnext
      · rw [hcount, hfinal, htake, List.append_assoc]
        rfl

theorem fillPtrs_eq {frameIndex : UInt32} {chain : List (Nat × Frame)}
    (hchain : log.Path frameIndex.toNat chain) (hlength : chain.length ≤ fuel)
    (buffer : List Frame) :
    ∃ next, log.fillPtrs fuel frameIndex buffer = some (next, chain.length) ∧
      next.take chain.length = chain.map Prod.snd := by
  obtain ⟨next, hnext, -, htake⟩ := storePtrs_spec chain (Nat.zero_le buffer.length)
  rw [Nat.zero_add] at hnext htake
  exact ⟨next, by rw [fillPtrs, hchain.walk_eq _ hlength]; exact hnext, by simpa using htake⟩

/-- The stale frames in the buffer are never read. -/
theorem formatCollapsedBuffer_eq (hwf : log.WellFormed) (hfuel : log.frames.length ≤ fuel) :
    log.formatCollapsedBuffer fuel = log.formatCollapsed fuel := by
  have hfold : ∀ (groups : List (UInt32 × Int)) (buffer : List Frame)
      (lines : OrderedMap Bytes Int),
      (∀ group ∈ groups, group.1.toNat < log.frames.length) →
      (groups.foldlM (fun (state : List Frame × OrderedMap Bytes Int) (group : UInt32 × Int) =>
        (log.fillPtrs fuel group.1 state.1).bind fun (buffer, numFrames) =>
          (collapsedLine (buffer.take numFrames)).map fun line =>
            (buffer, countUp state.2 line group.2)) (buffer, lines)).map Prod.snd =
      groups.foldlM (fun (lines : OrderedMap Bytes Int) (group : UInt32 × Int) =>
        (log.framePtrs fuel group.1).bind fun ptrs =>
          (collapsedLine ptrs).map fun line => countUp lines line group.2) lines := by
    intro groups
    induction groups with
    | nil => intro buffer lines _; rfl
    | cons group rest ih =>
        intro buffer lines hgroups
        obtain ⟨chain, hchain, hlength⟩ := hwf.path hfuel (hgroups group List.mem_cons_self)
        obtain ⟨next, hnext, htake⟩ := fillPtrs_eq hchain hlength buffer
        have hptrs : log.framePtrs fuel group.1 = some (chain.map Prod.snd) :=
          hchain.walk_collect (fun _ frame => frame) hlength
        rw [List.foldlM_cons, List.foldlM_cons]
        simp only [hnext, hptrs, Option.bind_some, htake]
        cases collapsedLine (chain.map Prod.snd) with
        | none => rfl
        | some line => exact ih next _ fun other hmem => hgroups other (List.mem_cons_of_mem _ hmem)
  rw [formatCollapsed_lines, lineCounts, ← hfold _ [] OrderedMap.empty, Option.map_map]
  · rfl
  · intro group hmem
    rcases mem_keys_counts (List.mem_map_of_mem hmem) with hempty | ⟨entry, hentry, hkey⟩
    · cases hempty
    · exact hkey ▸ hwf.entry_lt entry hentry

end Buffer

theorem run_eventCount {memory log : Log} {actions : List Action}
    (hrun : Transition.run step (init memory) actions = some log) :
    log.eventCount = (log.entries.map Entry.eventCount).sum := by
  have hboth : log.WellFormed ∧ log.eventCount = (log.entries.map Entry.eventCount).sum := by
    refine Transition.run_invariant (fun log : Log => log.WellFormed ∧
      log.eventCount = (log.entries.map Entry.eventCount).sum) ?_ ?_ hrun
    · rintro log action next ⟨hwf, hcount⟩ hstep
      cases action with
      | add stack eventCount timestamp =>
          obtain ⟨hnext, -, -, hsum, entry, hentries, hrecords, -⟩ := add_spec hwf hstep
          refine ⟨hnext, ?_⟩
          rw [hsum, hentries, hcount, List.map_append, List.sum_append, List.map_singleton,
            List.sum_singleton, hrecords.eventCount]
      | setMaxDepth depth =>
          obtain rfl := Option.some.inj hstep
          exact ⟨hwf.of_table rfl rfl hwf.entry_lt, hcount⟩
    · exact ⟨init_wellFormed memory, rfl⟩
  exact hboth.2

/-- The output has one line for each text of a stack, in the order in which the
texts first appear among the entries, with the sum of the counts of the entries
with that text. All printed counts together are the count of the log. -/
theorem collapsed_groups {memory log : Log} {actions : List Action}
    (hrun : Transition.run step (init memory) actions = some log) :
    ∃ rendered : List (List Bytes), List.Forall₂ log.Renders log.entries rendered ∧
      (∀ fuel, log.frames.length ≤ fuel →
        log.formatCollapsedBuffer fuel = log.formatCollapsed fuel ∧
        log.formatCollapsed fuel = some ((firsts (rendered.map joinNames)).flatMap fun line =>
          line ++ Bytes.ofString " " ++
            Bytes.decimal (amountOf (· = line) (log.countedLines rendered)) ++
            Bytes.ofString "\n")) ∧
      ((firsts (rendered.map joinNames)).map fun line =>
        amountOf (· = line) (log.countedLines rendered)).sum = log.eventCount := by
  obtain ⟨hholds, -⟩ := (init_holds memory).run hrun
  have hwf := hholds.wellFormed
  obtain ⟨rendered, hrendered⟩ := hwf.renders_all
  have hlength : (rendered.map joinNames).length = (log.entries.map Entry.eventCount).length := by
    rw [List.length_map, List.length_map, hrendered.length_eq]
  have hkeys : (log.countedLines rendered).map Prod.fst = rendered.map joinNames :=
    List.map_fst_zip (by omega)
  refine ⟨rendered, hrendered, ?_, ?_⟩
  · intro fuel hfuel
    refine ⟨formatCollapsedBuffer_eq hwf hfuel, ?_⟩
    rw [formatCollapsed_lines, lineCounts_eq hwf hfuel hrendered, Option.map_some, entries_tally,
      List.flatMap_map, hkeys]
    rfl
  · have hcounts : (log.countedLines rendered).map Prod.snd = log.entries.map Entry.eventCount :=
      List.map_snd_zip (by omega)
    have hsum := sum_tally (log.countedLines rendered)
    rw [entries_tally, List.map_map, hkeys, hcounts, ← run_eventCount hrun] at hsum
    exact hsum

/-- A function is sampled on two lines, with another one in between. -/
def twoLines : List Action :=
  let f := Bytes.ofString "f"
  let g := Bytes.ofString "g"
  [.add [plainCall f 3, plainCall g 7] 1 10, .add [plainCall g 7] 4 20,
   .add [plainCall f 5, plainCall g 8] 2 30]

theorem collapsed_groups_twoLines :
    ∃ log, Transition.run step (init zero) twoLines = some log ∧ log.eventCount = 7 ∧
      log.formatCollapsed 6 = some (Bytes.ofString "g;f 3\ng 4\n") ∧
      log.formatCollapsedBuffer 6 = log.formatCollapsed 6 := by
  obtain ⟨log, hrun, hcheck⟩ := Transition.run_check step (init zero) twoLines
    (fun log => log.frames.length == 5 && log.eventCount == 7 &&
      log.formatCollapsed 6 == some (Bytes.ofString "g;f 3\ng 4\n")) (by decide)
  simp only [Bool.and_eq_true, beq_iff_eq] at hcheck
  obtain ⟨⟨hlength, hcount⟩, hformat⟩ := hcheck
  obtain ⟨rendered, -, houtput, -⟩ := collapsed_groups hrun
  exact ⟨log, hrun, hcount, hformat, (houtput 6 (by omega)).1⟩

end Excimer.Log
