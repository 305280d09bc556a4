import Excimer.Log.Decode

/-!
The speedscope format against the collapsed one. Frames are shared a second time
here, by rendered name and file and without the line, and the samples refer to
the shared frames by their position.
-/

namespace Excimer.Log

open ParentChain OrderedMap

/-- The key of a frame, read off the array that stands for it. -/
def SpeedscopeFrame.key (array : SpeedscopeFrame) : Bytes :=
  array.name ++ 0 :: array.file.getD []

/-- The array at a position of the frames array stands for a frame. -/
def StandsFor (shared : SharedFrames) (frame : Frame) (index : Nat) : Prop :=
  ∃ array, shared.frames[index]? = some array ∧ frameToSpeedscopeArray frame = some array

/-- What the loop over the frames keeps. Index 0 is reserved, its cell in
`lp_frame_indexes` is never written. -/
structure Shares (frames : List Frame) (shared : SharedFrames) : Prop where
  find_iff : ∀ key index, shared.indexesByKey.find key = some index ↔
    ∃ array, shared.frames[index]? = some array ∧ array.key = key
  array_names : ∀ array ∈ shared.frames, (0 : UInt8) ∉ array.name ∧ array.file.isSome
  indexes : ∃ indexes, shared.frameIndexes = 0 :: indexes ∧
    List.Forall₂ (StandsFor shared) frames indexes

section Frames

theorem frameKey_eq {frame : Frame} {key : Bytes} (hkey : getSpeedscopeFrameKey frame = some key) :
    ∃ array, frameToSpeedscopeArray frame = some array ∧ array.key = key ∧
      (0 : UInt8) ∉ array.name ∧ array.file.isSome := by
  obtain ⟨name, hname, hkey⟩ := Option.bind_eq_some_iff.mp hkey
  obtain ⟨filename, hfilename, rfl⟩ := Option.map_eq_some_iff.mp hkey
  refine ⟨⟨name, frame.filename⟩, by rw [frameToSpeedscopeArray, hname]; rfl, ?_,
    nul_notMem_frameName hname, by rw [hfilename]; rfl⟩
  rw [SpeedscopeFrame.key, hfilename, Option.getD_some]

/-- A rendered name has no NUL, so that the key determines name and file. -/
theorem SpeedscopeFrame.eq_of_key {a b : SpeedscopeFrame} (ha : (0 : UInt8) ∉ a.name)
    (hafile : a.file.isSome) (hb : (0 : UInt8) ∉ b.name) (hbfile : b.file.isSome)
    (hkey : a.key = b.key) : a = b := by
  obtain ⟨aname, afile⟩ := a
  obtain ⟨bname, bfile⟩ := b
  obtain ⟨apath, rfl⟩ := Option.isSome_iff_exists.mp hafile
  obtain ⟨bpath, rfl⟩ := Option.isSome_iff_exists.mp hbfile
  obtain ⟨rfl, rfl⟩ := Bytes.append_first_sep_inj ha hb hkey
  rfl

theorem Shares.init : Shares [] ⟨[], OrderedMap.empty, [0]⟩ where
  find_iff := by simp [OrderedMap.find, OrderedMap.empty]
  array_names := by simp
  indexes := ⟨[], rfl, .nil⟩

/-- The frame is new to the frames array or stands there already. -/
theorem Shares.add {frames : List Frame} {shared next : SharedFrames} {frame : Frame}
    (hshares : Shares frames shared) (hrun : addSharedFrame shared frame = some next) :
    Shares (frames ++ [frame]) next := by
  obtain ⟨key, hkey, hrun⟩ := Option.bind_eq_some_iff.mp hrun
  obtain ⟨array, harray, hsame, hnul, hfile⟩ := frameKey_eq hkey
  obtain ⟨indexes, hindexes, hstands⟩ := hshares.indexes
  cases hfind : shared.indexesByKey.find key with
  | some index =>
      simp only [hfind] at hrun
      obtain rfl := Option.some.inj hrun
      obtain ⟨other, hother, hothers⟩ := (hshares.find_iff key index).mp hfind
      obtain ⟨hothernul, hotherfile⟩ := hshares.array_names other (List.mem_of_getElem? hother)
      obtain rfl : other = array := SpeedscopeFrame.eq_of_key hothernul hotherfile hnul hfile
        (hothers.trans hsame.symm)
      refine ⟨hshares.find_iff, hshares.array_names, indexes ++ [index], by simp [hindexes], ?_⟩
      exact List.rel_append hstands (.cons ⟨other, hother, harray⟩ .nil)
  | none =>
      simp only [hfind] at hrun
      obtain ⟨made, hmade, rfl⟩ := Option.map_eq_some_iff.mp hrun
      obtain rfl := Option.some.inj (hmade.symm.trans harray)
      refine ⟨?_, ?_, indexes ++ [shared.frames.length], by simp [hindexes], ?_⟩
      · intro other index
        simp only [OrderedMap.find_add hfind, List.getElem?_concat_eq_some]
        by_cases h : other = key
        · subst h
          rw [if_pos rfl]
          constructor
          · intro hlast
            exact ⟨made, Or.inr ⟨(Option.some.inj hlast).symm, rfl⟩, hsame⟩
          · rintro ⟨found, hold | ⟨hlast, -⟩, hfound⟩
            · have hpresent := (hshares.find_iff other index).mpr ⟨found, hold, hfound⟩
              rw [hfind] at hpresent
              cases hpresent
            · rw [hlast]
        · rw [if_neg h, hshares.find_iff]
          constructor
          · rintro ⟨found, hold, hfound⟩
            exact ⟨found, Or.inl hold, hfound⟩
          · rintro ⟨found, hold | ⟨-, rfl⟩, hfound⟩
            · exact ⟨found, hold, hfound⟩
            · exact absurd (hfound.symm.trans hsame) h
      · intro other hmem
        rcases List.mem_append.mp hmem with hold | hlast
        · exact hshares.array_names other hold
        · obtain rfl := List.mem_singleton.mp hlast
          exact ⟨hnul, hfile⟩
      · apply List.rel_append
        · apply hstands.imp
          rintro old index ⟨found, hfound, hold⟩
          exact ⟨found, List.getElem?_concat_eq_some.mpr (Or.inl hfound), hold⟩
        · exact .cons ⟨made, List.getElem?_concat_eq_some.mpr (Or.inr ⟨rfl, rfl⟩), harray⟩ .nil

theorem Shares.foldlM {done frames : List Frame} {shared final : SharedFrames}
    (hshares : Shares done shared) (hrun : frames.foldlM addSharedFrame shared = some final) :
    Shares (done ++ frames) final := by
  induction frames generalizing done shared with
  | nil =>
      obtain rfl := Option.some.inj hrun
      rw [List.append_nil]
      exact hshares
  | cons frame rest ih =>
      obtain ⟨next, hnext, hrest⟩ := Option.bind_eq_some_iff.mp hrun
      rw [List.append_cons]
      exact ih (hshares.add hnext) hrest

theorem Shares.nodup {frames : List Frame} {shared : SharedFrames}
    (hshares : Shares frames shared) :
    shared.frames.Nodup := by
  rw [List.nodup_iff_getElem?_ne_getElem?]
  intro i j hlt hj hsame
  have hfound := List.getElem?_eq_getElem hj
  have hi := (hshares.find_iff _ i).mpr ⟨_, hsame.trans hfound, rfl⟩
  have hj := (hshares.find_iff _ j).mpr ⟨_, hfound, rfl⟩
  obtain rfl := Option.some.inj (hi.symm.trans hj)
  exact Nat.lt_irrefl _ hlt

/-- The cell of a frame in `lp_frame_indexes`. -/
theorem Shares.standsFor {log : Log} {shared : SharedFrames}
    (hshares : Shares (log.frames.drop 1) shared) {i : Nat} {frame : Frame}
    (hframe : log.getFrame i = some frame) :
    ∃ index, shared.frameIndexes[i]? = some index ∧ StandsFor shared frame index := by
  obtain ⟨hne, hstored⟩ := getFrame_eq.mp hframe
  obtain ⟨indexes, hindexes, hstands⟩ := hshares.indexes
  obtain ⟨k, rfl⟩ := Nat.exists_eq_add_one_of_ne_zero hne
  have hdrop : (log.frames.drop 1)[k]? = some frame := by
    rw [List.getElem?_drop, Nat.add_comm]
    exact hstored
  obtain ⟨hlt, hget⟩ := List.getElem?_eq_some_iff.mp hdrop
  have hlt' : k < indexes.length := hstands.length_eq ▸ hlt
  refine ⟨indexes[k], ?_, ?_⟩
  · rw [hindexes, List.getElem?_cons_succ, List.getElem?_eq_getElem hlt']
  · rw [← hget]
    exact hstands.get hlt hlt'

end Frames

section Samples

variable {log : Log} {fuel : Nat}

/-- The chain is written backwards into an array of its length. -/
theorem fillStack_standsFor {shared : SharedFrames} (hshares : Shares (log.frames.drop 1) shared)
    {i : Nat} {chain : List (Nat × Frame)} (hchain : log.Path i chain) :
    ∃ sample, log.fillStack shared.frameIndexes chain.length i = some sample ∧
      List.Forall₂ (StandsFor shared) (chain.reverse.map Prod.snd) sample := by
  induction hchain with
  | root => exact ⟨[], rfl, .nil⟩
  | @link i frame rest hne hframe _ ih =>
      obtain ⟨outer, houter, hstands⟩ := ih
      obtain ⟨index, hindex, hframes⟩ := hshares.standsFor hframe
      refine ⟨outer ++ [index], ?_, ?_⟩
      · simp only [List.length_cons, fillStack, hindex, (getFrame_eq.mp hframe).2,
          Option.bind_some, houter, Option.map_some]
      · rw [List.reverse_cons, List.map_append]
        exact List.rel_append hstands (.cons hframes .nil)

theorem sampleStack_standsFor (hwf : log.WellFormed) (hfuel : log.frames.length ≤ fuel)
    {shared : SharedFrames} (hshares : Shares (log.frames.drop 1) shared) {entry : Entry}
    (hentry : entry ∈ log.entries) :
    ∃ sample chain, log.sampleStack fuel shared.frameIndexes entry = some sample ∧
      log.Path entry.frameIndex.toNat chain ∧
      List.Forall₂ (StandsFor shared) (chain.reverse.map Prod.snd) sample := by
  have hlt := hwf.entry_lt entry hentry
  obtain ⟨chain, hchain, hlength⟩ := hwf.path hfuel hlt
  obtain ⟨sample, hsample, hstands⟩ := fillStack_standsFor hshares hchain
  refine ⟨sample, chain, ?_, hchain, hstands⟩
  rw [sampleStack, countFrames_eq hchain hlength, Option.bind_some, hchain.length_toNat hwf hlt]
  exact hsample

end Samples

/-- The names of a sample, read through the frames array. -/
def sampleNames (frames : List SpeedscopeFrame) (sample : List Nat) : List Bytes :=
  sample.filterMap fun index => frames[index]?.map SpeedscopeFrame.name

/-- A sample lists the frames of an entry, outermost first. -/
def Samples (log : Log) (frames : List SpeedscopeFrame) (entry : Entry) (sample : List Nat) :
    Prop :=
  (∀ index ∈ sample, index < frames.length) ∧
  ∃ chain, log.Path entry.frameIndex.toNat chain ∧
    sample.map (fun index => frames[index]?.map fun array => (array.name, array.file)) =
      chain.reverse.map fun link => (frameName link.2).map fun name => (name, link.2.filename)

section Agreement

variable {log : Log} {fuel : Nat}

theorem StandsFor.pair {shared : SharedFrames} {frame : Frame} {index : Nat}
    (hstands : StandsFor shared frame index) :
    index < shared.frames.length ∧
      shared.frames[index]?.map (fun array => (array.name, array.file)) =
        (frameName frame).map fun name => (name, frame.filename) := by
  obtain ⟨array, harray, hframe⟩ := hstands
  obtain ⟨name, hname, rfl⟩ := Option.map_eq_some_iff.mp hframe
  exact ⟨(List.getElem?_eq_some_iff.mp harray).1, by rw [harray, hname]; rfl⟩

theorem Samples.of_standsFor {shared : SharedFrames} {entry : Entry} {sample : List Nat}
    {chain : List (Nat × Frame)} (hchain : log.Path entry.frameIndex.toNat chain)
    (hstands : List.Forall₂ (StandsFor shared) (chain.reverse.map Prod.snd) sample) :
    log.Samples shared.frames entry sample := by
  refine ⟨?_, chain, hchain, ?_⟩
  · intro index hmem
    obtain ⟨frame, -, hframe⟩ := hstands.exists_left hmem
    exact hframe.pair.1
  · rw [show
      (fun link : Nat × Frame => (frameName link.2).map fun name => (name, link.2.filename)) =
      (fun frame : Frame => (frameName frame).map fun name => (name, frame.filename)) ∘ Prod.snd
        from rfl, ← List.map_map]
    symm
    rw [← List.forall₂_eq_eq_eq, List.forall₂_map_left_iff, List.forall₂_map_right_iff]
    exact hstands.imp fun frame index hframe => hframe.pair.2.symm

theorem sampleNames_eq {frames : List SpeedscopeFrame} {sample : List Nat}
    (hrange : ∀ index ∈ sample, index < frames.length) :
    sample.map (fun index => frames[index]?.map SpeedscopeFrame.name) =
      (sampleNames frames sample).map some := by
  induction sample with
  | nil => rfl
  | cons index rest ih =>
      have hrest := ih fun other hmem => hrange other (List.mem_cons_of_mem _ hmem)
      have hget := List.getElem?_eq_getElem (hrange index List.mem_cons_self)
      simp only [sampleNames] at hrest
      simp [sampleNames, hget, hrest]

/-- The names of a sample are those that the collapsed format renders. -/
theorem Samples.renders {frames : List SpeedscopeFrame} {entry : Entry} {sample : List Nat}
    (hsamples : log.Samples frames entry sample) :
    log.Renders entry (sampleNames frames sample) := by
  obtain ⟨hrange, chain, hchain, hpairs⟩ := hsamples
  refine ⟨chain, hchain, ?_⟩
  have hnames := congrArg (List.map (Option.map Prod.fst)) hpairs
  simp only [List.map_map, Function.comp_def, Option.map_map, Option.map_id'] at hnames
  rw [← sampleNames_eq hrange]
  exact hnames.symm

theorem getSpeedscopeData_samples (hwf : log.WellFormed) (hfuel : log.frames.length ≤ fuel) :
    ∃ data profile, log.getSpeedscopeData fuel = some data ∧ data.profiles = [profile] ∧
      data.frames.Nodup ∧
      List.Forall₂ (log.Samples data.frames) log.entries profile.samples := by
  obtain ⟨shared, hshared, -⟩ := sharedFrames_spec hwf
  have hshares : Shares (log.frames.drop 1) shared := Shares.init.foldlM hshared
  have hstack : ∀ entry ∈ log.entries, ∃ sample,
      log.sampleStack fuel shared.frameIndexes entry = some sample ∧
        log.Samples shared.frames entry sample := by
    intro entry hentry
    obtain ⟨sample, chain, hsample, hchain, hstands⟩ :=
      sampleStack_standsFor hwf hfuel hshares hentry
    exact ⟨sample, hsample, Samples.of_standsFor hchain hstands⟩
  obtain ⟨samples, hsamples⟩ := List.exists_forall₂ hstack
  have hmap := (hsamples.imp fun _ _ h => h.1).mapM_eq
  refine ⟨_, _, by rw [getSpeedscopeData, hshared, Option.bind_some, hmap, Option.map_some], rfl,
    hshares.nodup, hsamples.imp fun _ _ h => h.2⟩

end Agreement

/-- The shared frames are distinct, there is one sample for each entry, in order,
and the positions in a sample lead to the names and files of the entry's chain,
outermost first. Counting the entries by the joined names of their samples gives
the lines of the collapsed format. -/
theorem speedscope_agrees {memory log : Log} {actions : List Action}
    (hrun : Transition.run step (init memory) actions = some log) {fuel : Nat}
    (hfuel : log.frames.length ≤ fuel) :
    ∃ data profile, log.getSpeedscopeData fuel = some data ∧ data.profiles = [profile] ∧
      (data.frames.map fun array => (array.name, array.file)).Nodup ∧
      List.Forall₂ (log.Samples data.frames) log.entries profile.samples ∧
      ∃ lines : OrderedMap Bytes Int,
        lines = tally ((profile.samples.map fun sample =>
          joinNames (sampleNames data.frames sample)).zip (log.entries.map Entry.eventCount)) ∧
        log.lineCounts fuel = some lines ∧
        log.formatCollapsed fuel =
          some (lines.entries.flatMap fun line => printLine line.1 line.2) := by
  obtain ⟨hholds, -⟩ := (init_holds memory).run hrun
  have hwf := hholds.wellFormed
  obtain ⟨data, profile, hdata, hprofile, hnodup, hsamples⟩ :=
    getSpeedscopeData_samples hwf hfuel
  have hrendered : List.Forall₂ log.Renders log.entries
      (profile.samples.map (sampleNames data.frames)) := by
    rw [List.forall₂_map_right_iff]
    exact hsamples.imp fun _ _ h => h.renders
  have hlines := lineCounts_eq hwf hfuel hrendered
  rw [countedLines, List.map_map] at hlines
  refine ⟨data, profile, hdata, hprofile, ?_, hsamples, _, rfl, hlines, ?_⟩
  · apply hnodup.map
    rintro ⟨aname, afile⟩ ⟨bname, bfile⟩ hsame
    obtain ⟨rfl, rfl⟩ := Prod.mk.inj hsame
    rfl
  · rw [formatCollapsed_lines, hlines, Option.map_some]
    rfl

/-- The two lines of `f` share one frame in the export. -/
theorem speedscope_agrees_twoLines :
    ∃ log data profile, Transition.run step (init zero) twoLines = some log ∧
      log.getSpeedscopeData 6 = some data ∧ data.profiles = [profile] ∧
      profile.samples = [[0, 1], [0], [0, 1]] ∧
      data.frames.map SpeedscopeFrame.name = [Bytes.ofString "g", Bytes.ofString "f"] ∧
      List.Forall₂ (log.Samples data.frames) log.entries profile.samples := by
  obtain ⟨log, hrun, hcheck⟩ := Transition.run_check step (init zero) twoLines
    (fun log => log.frames.length == 5 && (log.getSpeedscopeData 6).any fun data =>
      data.frames.map SpeedscopeFrame.name == [Bytes.ofString "g", Bytes.ofString "f"] &&
        data.profiles.map SpeedscopeProfile.samples == [[[0, 1], [0], [0, 1]]]) (by decide)
  simp only [Bool.and_eq_true, beq_iff_eq] at hcheck
  obtain ⟨hlength, hany⟩ := hcheck
  obtain ⟨data, profile, hdata, hprofile, -, hsamples, -⟩ :=
    speedscope_agrees hrun (show log.frames.length ≤ 6 by omega)
  simp only [hdata, Option.any_some, hprofile, Bool.and_eq_true, beq_iff_eq, List.map_cons,
    List.map_nil, List.cons.injEq, and_true] at hany
  exact ⟨log, data, profile, hrun, hdata, hprofile, hany.2, hany.1, hsamples⟩

end Excimer.Log
