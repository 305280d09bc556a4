import Excimer.Log.Collapsed

/-!
Reading the collapsed format back. A reader splits the output at newlines, each
line at its space and the part before the space at semicolons. The writer keeps
spaces out of the names, but newlines and semicolons of a filename, a class name
or a function name go through, and then the reader fails or merges stacks.
-/

namespace Excimer.Log

open OrderedMap

/-- The stack that the part of a line before the space stands for. -/
def splitStack (text : Bytes) : List Bytes :=
  if text = [] then [] else text.splitOn 59

/-- A line has exactly one space. -/
def decodeLine (line : Bytes) : Option (List Bytes × Int) :=
  match line.splitOn 32 with
  | [text, count] => (Bytes.readDecimal count).map fun n => (splitStack text, n)
  | _ => none

/-- The pieces between newlines. After the last newline there is nothing. -/
def decodePieces : List Bytes → Option (List (List Bytes × Int))
  | [] => none
  | [last] => if last = [] then some [] else none
  | piece :: next :: rest =>
      (decodeLine piece).bind fun pair =>
        (decodePieces (next :: rest)).map fun pairs => pair :: pairs

def decode (output : Bytes) : Option (List (List Bytes × Int)) :=
  decodePieces (output.splitOn 10)

/-- The map that a log represents, from stacks of names to total counts. -/
def StackCounts (log : Log) (table : OrderedMap (List Bytes) Int) : Prop :=
  ∃ rendered, List.Forall₂ log.Renders log.entries rendered ∧
    table = tally (rendered.zip (log.entries.map Entry.eventCount))

/-- Decoding the output gives back the map. -/
def Recovered (log : Log) (fuel : Nat) : Prop :=
  ∃ output table pairs, log.formatCollapsed fuel = some output ∧ log.StackCounts table ∧
    decode output = some pairs ∧ (pairs.map Prod.fst).Nodup ∧
    ∀ names count, (names, count) ∈ pairs ↔ table.find names = some count

/-- The strings of a frame that its name is made of. -/
def Frame.texts (frame : Frame) : List Bytes :=
  if frame.closureLine ≠ 0 then frame.filename.toList
  else
    match frame.functionName with
    | none => frame.filename.toList
    | some functionName => frame.className.toList ++ [functionName]

/-- Nothing is written for the name of the frame. -/
def Frame.nameless (frame : Frame) : Prop :=
  frame.closureLine = 0 ∧ frame.texts = [[]]

instance (frame : Frame) : Decidable frame.nameless :=
  inferInstanceAs (Decidable (_ ∧ _))

/-- No string that a name is made of contains a newline or a semicolon, and no
stack consists of one frame without a name. -/
def Separable (log : Log) : Prop :=
  ∀ entry ∈ log.entries, ∀ chain, log.Path entry.frameIndex.toNat chain →
    (∀ link ∈ chain, ∀ text ∈ link.2.texts, (10 : UInt8) ∉ text ∧ (59 : UInt8) ∉ text) ∧
      ∀ link, chain = [link] → ¬link.2.nameless

section Names

theorem mem_noSpaces {b : UInt8} (hspace : b ≠ 32) (hnul : b ≠ 0) (hmark : b ≠ 95) {src : Bytes} :
    b ∈ noSpaces src ↔ b ∈ src := by
  simp only [noSpaces, List.mem_map]
  constructor
  · rintro ⟨c, hc, hwritten⟩
    split at hwritten
    · exact absurd hwritten.symm hmark
    · exact hwritten ▸ hc
  · intro hmem
    exact ⟨b, hmem, by simp [hspace, hnul]⟩

theorem space_notMem_noSpaces (src : Bytes) : (32 : UInt8) ∉ noSpaces src := by
  simp only [noSpaces, List.mem_map, not_exists, not_and]
  intro c _ hwritten
  split at hwritten
  · cases hwritten
  · next hkept => exact hkept (Or.inl hwritten)

theorem nul_notMem_noSpaces (src : Bytes) : (0 : UInt8) ∉ noSpaces src := by
  simp only [noSpaces, List.mem_map, not_exists, not_and]
  intro c _ hwritten
  split at hwritten
  · cases hwritten
  · next hkept => exact hkept (Or.inr hwritten)

/-- The characters of a name that do not come from the strings of the frame. -/
def fixedParts (frame : Frame) : Bytes :=
  Bytes.ofString "\x7bclosure:" ++ Bytes.ofString "(" ++
    Bytes.decimal frame.closureLine.toInt32.toInt ++ Bytes.ofString ")\x7d" ++ Bytes.ofString "::"

/-- What `excimer_log_append_frame_name` can append, by the strings it reads. -/
inductive Spelled (frame : Frame) : Bytes → Prop
  | closure {filename : Bytes} (hline : frame.closureLine ≠ 0)
      (htexts : frame.texts = [filename]) :
      Spelled frame (Bytes.ofString "\x7bclosure:" ++ noSpaces filename ++ Bytes.ofString "(" ++
        Bytes.decimal frame.closureLine.toInt32.toInt ++ Bytes.ofString ")\x7d")
  | single {text : Bytes} (hline : frame.closureLine = 0) (htexts : frame.texts = [text]) :
      Spelled frame (noSpaces text)
  | method {className functionName : Bytes} (hline : frame.closureLine = 0)
      (htexts : frame.texts = [className, functionName]) :
      Spelled frame (noSpaces className ++ Bytes.ofString "::" ++ noSpaces functionName)

theorem frameName_spelled {frame : Frame} {name : Bytes} (hname : frameName frame = some name) :
    Spelled frame name := by
  unfold frameName nameWith at hname
  split at hname
  · next hclosure =>
      obtain ⟨filename, hfile, rfl⟩ := Option.map_eq_some_iff.mp hname
      exact .closure hclosure (by simp [Frame.texts, hclosure, hfile])
  · next hplain =>
      have hzero : frame.closureLine = 0 := not_not.mp hplain
      cases hfunction : frame.functionName with
      | none =>
          simp only [hfunction] at hname
          obtain ⟨filename, hfile, rfl⟩ := Option.map_eq_some_iff.mp hname
          exact .single hzero (by simp [Frame.texts, hzero, hfunction, hfile])
      | some functionName =>
          cases hclass : frame.className with
          | none =>
              simp only [hfunction, hclass, Option.some.injEq] at hname
              subst hname
              exact .single hzero (by simp [Frame.texts, hzero, hfunction, hclass])
          | some className =>
              simp only [hfunction, hclass, Option.some.injEq] at hname
              subst hname
              exact .method hzero (by simp [Frame.texts, hzero, hfunction, hclass])

theorem mem_frameName {frame : Frame} {name : Bytes} (hname : frameName frame = some name)
    {b : UInt8} (hmem : b ∈ name) :
    b ∈ fixedParts frame ∨ ∃ text ∈ frame.texts, b ∈ noSpaces text := by
  unfold fixedParts
  cases frameName_spelled hname with
  | closure _ htexts =>
      simp only [List.mem_append, htexts, List.mem_singleton, exists_eq_left] at hmem ⊢
      rcases hmem with (((hmem | hmem) | hmem) | hmem) | hmem
      · exact Or.inl (Or.inl (Or.inl (Or.inl (Or.inl hmem))))
      · exact Or.inr hmem
      · exact Or.inl (Or.inl (Or.inl (Or.inl (Or.inr hmem))))
      · exact Or.inl (Or.inl (Or.inl (Or.inr hmem)))
      · exact Or.inl (Or.inl (Or.inr hmem))
  | @single text _ htexts => exact Or.inr ⟨text, by simp [htexts], hmem⟩
  | @method className functionName _ htexts =>
      simp only [List.mem_append] at hmem ⊢
      rcases hmem with (hmem | hmem) | hmem
      · exact Or.inr ⟨className, by simp [htexts], hmem⟩
      · exact Or.inl (Or.inr hmem)
      · exact Or.inr ⟨functionName, by simp [htexts], hmem⟩

theorem mem_frameName_of_text {frame : Frame} {name : Bytes} (hname : frameName frame = some name)
    {text : Bytes} (htext : text ∈ frame.texts) {b : UInt8} (hmem : b ∈ noSpaces text) :
    b ∈ name := by
  cases frameName_spelled hname with
  | closure _ htexts =>
      obtain rfl := List.mem_singleton.mp (htexts ▸ htext)
      simp [hmem]
  | single _ htexts =>
      obtain rfl := List.mem_singleton.mp (htexts ▸ htext)
      exact hmem
  | method _ htexts =>
      rw [htexts] at htext
      rcases List.mem_pair.mp htext with rfl | rfl
      · simp [hmem]
      · simp [hmem]

theorem fixedParts_plain {frame : Frame} {b : UInt8} (hplain : b = 0 ∨ b = 10 ∨ b = 32 ∨ b = 59) :
    b ∉ fixedParts frame := by
  have hdecimal : b ∉ Bytes.decimal frame.closureLine.toInt32.toInt := by
    rcases hplain with rfl | rfl | rfl | rfl
    · exact Bytes.notMem_decimal (by decide) (by decide) _
    · exact Bytes.notMem_decimal (by decide) (by decide) _
    · exact Bytes.notMem_decimal (by decide) (by decide) _
    · exact Bytes.notMem_decimal (by decide) (by decide) _
  simp only [fixedParts, List.mem_append, hdecimal, or_false, not_or]
  rcases hplain with rfl | rfl | rfl | rfl <;> decide

theorem space_notMem_frameName {frame : Frame} {name : Bytes}
    (hname : frameName frame = some name) : (32 : UInt8) ∉ name := by
  intro hmem
  rcases mem_frameName hname hmem with hfixed | ⟨text, -, htext⟩
  · exact fixedParts_plain (by simp) hfixed
  · exact space_notMem_noSpaces text htext

theorem nul_notMem_frameName {frame : Frame} {name : Bytes}
    (hname : frameName frame = some name) : (0 : UInt8) ∉ name := by
  intro hmem
  rcases mem_frameName hname hmem with hfixed | ⟨text, -, htext⟩
  · exact fixedParts_plain (by simp) hfixed
  · exact nul_notMem_noSpaces text htext

/-- A delimiter is in a name when it is in one of the strings it is made of. -/
theorem delimiter_mem_frameName {frame : Frame} {name : Bytes} (hname : frameName frame = some name)
    {b : UInt8} (hb : b = 10 ∨ b = 59) : b ∈ name ↔ ∃ text ∈ frame.texts, b ∈ text := by
  have hkept (text : Bytes) : b ∈ noSpaces text ↔ b ∈ text := by
    rcases hb with rfl | rfl <;> exact mem_noSpaces (by decide) (by decide) (by decide)
  constructor
  · intro hmem
    rcases mem_frameName hname hmem with hfixed | ⟨text, htext, hwritten⟩
    · exact absurd hfixed (fixedParts_plain (Or.inr (hb.imp_right Or.inr)))
    · exact ⟨text, htext, (hkept text).mp hwritten⟩
  · rintro ⟨text, htext, hmem⟩
    exact mem_frameName_of_text hname htext ((hkept text).mpr hmem)

theorem frameName_eq_nil {frame : Frame} {name : Bytes} (hname : frameName frame = some name) :
    name = [] ↔ frame.nameless := by
  unfold Frame.nameless
  cases frameName_spelled hname with
  | closure hline _ => simp [hline, Bytes.ofString]
  | single hline htexts => simp [hline, htexts, noSpaces]
  | method _ htexts => simp [htexts, Bytes.ofString]

end Names

section Lines

theorem decodeLine_printed {line : Bytes} (hline : (32 : UInt8) ∉ line) (count : Int) :
    decodeLine (line ++ 32 :: Bytes.decimal count) = some (splitStack line, count) := by
  have hcount : (32 : UInt8) ∉ Bytes.decimal count :=
    Bytes.notMem_decimal (by decide) (by decide) count
  rw [decodeLine, List.splitOn_append_cons_self_of_not_mem hline, List.splitOn_eq_singleton hcount]
  simp [Bytes.readDecimal_decimal]

theorem decodeLine_no_space {line : Bytes} (hline : (32 : UInt8) ∉ line) :
    decodeLine line = none := by
  rw [decodeLine, List.splitOn_eq_singleton hline]

theorem printLine_eq (line : Bytes) (count : Int) :
    printLine line count = (line ++ 32 :: Bytes.decimal count) ++ [10] := by
  have hspace : Bytes.ofString " " = [32] := by decide
  have hnewline : Bytes.ofString "\n" = [10] := by decide
  simp [printLine, hspace, hnewline]

theorem decodePieces_cons (piece : Bytes) {rest : List Bytes} (hrest : rest ≠ []) :
    decodePieces (piece :: rest) = (decodeLine piece).bind fun pair =>
      (decodePieces rest).map fun pairs => pair :: pairs := by
  cases rest with
  | nil => exact absurd rfl hrest
  | cons next rest => rfl

theorem decode_cons {line : Bytes} (hspace : (32 : UInt8) ∉ line) (hline : (10 : UInt8) ∉ line)
    (count : Int) (rest : Bytes) :
    decode (printLine line count ++ rest) =
      (decode rest).map fun pairs => (splitStack line, count) :: pairs := by
  have hpiece : (10 : UInt8) ∉ line ++ 32 :: Bytes.decimal count := by
    have hcount : (10 : UInt8) ∉ Bytes.decimal count :=
      Bytes.notMem_decimal (by decide) (by decide) count
    simp [hline, hcount]
  rw [printLine_eq, decode, List.append_assoc, List.singleton_append,
    List.splitOn_append_cons_self_of_not_mem hpiece,
    decodePieces_cons _ (List.splitOn_ne_nil _ _), decodeLine_printed hspace, Option.bind_some,
    decode]

theorem decode_printed {entries : List (Bytes × Int)}
    (hspaces : ∀ entry ∈ entries, (32 : UInt8) ∉ entry.1)
    (hlines : ∀ entry ∈ entries, (10 : UInt8) ∉ entry.1) :
    decode (entries.flatMap fun entry => printLine entry.1 entry.2) =
      some (entries.map fun entry => (splitStack entry.1, entry.2)) := by
  induction entries with
  | nil => rfl
  | cons entry rest ih =>
      rw [List.flatMap_cons, decode_cons (hspaces entry List.mem_cons_self)
        (hlines entry List.mem_cons_self),
        ih (fun other hmem => hspaces other (List.mem_cons_of_mem _ hmem))
          (fun other hmem => hlines other (List.mem_cons_of_mem _ hmem))]
      rfl

/-- A newline in a line leaves a piece without a space. -/
theorem decode_newline {entries : List (Bytes × Int)}
    (hspaces : ∀ entry ∈ entries, (32 : UInt8) ∉ entry.1) {broken : Bytes × Int}
    (hbroken : broken ∈ entries) (hnewline : (10 : UInt8) ∈ broken.1) :
    decode (entries.flatMap fun entry => printLine entry.1 entry.2) = none := by
  induction entries with
  | nil => cases hbroken
  | cons entry rest ih =>
      have hspace := hspaces entry List.mem_cons_self
      rw [List.flatMap_cons]
      by_cases hline : (10 : UInt8) ∈ entry.1
      · obtain ⟨first, second, hsplit, hfirst⟩ := List.eq_append_cons_of_mem hline
        have hpiece : (32 : UInt8) ∉ first := fun hmem =>
          hspace (hsplit ▸ List.mem_append_left _ hmem)
        rw [printLine_eq, hsplit, decode, List.append_assoc, List.append_assoc, List.append_assoc,
          List.cons_append, List.splitOn_append_cons_self_of_not_mem hfirst,
          decodePieces_cons _ (List.splitOn_ne_nil _ _), decodeLine_no_space hpiece]
        rfl
      · have hlater : broken ∈ rest := by
          rcases List.mem_cons.mp hbroken with rfl | hrest
          · exact absurd hnewline hline
          · exact hrest
        rw [decode_cons hspace hline,
          ih (fun other hmem => hspaces other (List.mem_cons_of_mem _ hmem)) hlater]
        rfl

end Lines

section Stacks

/-- A line gives the names back when they contain no semicolon and are not just
one empty name. -/
theorem splitStack_joinNames {names : List Bytes} (hnames : ∀ name ∈ names, (59 : UInt8) ∉ name)
    (hempty : names ≠ [[]]) : splitStack (joinNames names) = names := by
  cases names with
  | nil => rfl
  | cons name rest =>
      have hne : joinNames (name :: rest) ≠ [] := by
        rw [joinNames_cons]
        intro hnil
        obtain ⟨hname, hrest⟩ := List.append_eq_nil_iff.mp hnil
        cases rest with
        | nil => exact hempty (by rw [hname])
        | cons second rest => cases hrest
      rw [splitStack, if_neg hne, joinNames]
      exact List.splitOn_intercalate 59 hnames (List.cons_ne_nil name rest)

theorem notMem_splitStack {text name : Bytes} (hmem : name ∈ splitStack text) :
    (59 : UInt8) ∉ name := by
  unfold splitStack at hmem
  split at hmem
  · cases hmem
  · exact Bytes.notMem_of_mem_splitOn hmem

theorem splitStack_ne (text : Bytes) : splitStack text ≠ [[]] := by
  unfold splitStack
  split
  · exact List.cons_ne_nil [] [] |>.symm
  · next hne =>
      intro hsplit
      have hjoin : [(59 : UInt8)].intercalate (text.splitOn 59) = text :=
        List.intercalate_splitOn (59 : UInt8)
      rw [hsplit, List.intercalate_singleton] at hjoin
      exact hne hjoin.symm

theorem mem_joinNames {names : List Bytes} {name : Bytes} (hname : name ∈ names) {b : UInt8}
    (hb : b ∈ name) : b ∈ joinNames names := by
  cases names with
  | nil => cases hname
  | cons first rest =>
      rw [joinNames_cons, List.mem_append]
      rcases List.mem_cons.mp hname with rfl | hrest
      · exact Or.inl hb
      · exact Or.inr (List.mem_flatMap.mpr ⟨name, hrest, List.mem_cons_of_mem _ hb⟩)

theorem notMem_joinNames {names : List Bytes} {b : UInt8} (hsep : b ≠ 59)
    (hnames : ∀ name ∈ names, b ∉ name) : b ∉ joinNames names := by
  cases names with
  | nil => exact List.not_mem_nil
  | cons first rest =>
      rw [joinNames_cons, List.mem_append, List.mem_flatMap]
      rintro (hfirst | ⟨name, hname, hmem⟩)
      · exact hnames first List.mem_cons_self hfirst
      · rcases List.mem_cons.mp hmem with heq | hrest
        · exact hsep heq
        · exact hnames name (List.mem_cons_of_mem _ hname) hrest

end Stacks

section Recovery

variable {log : Log} {fuel : Nat}

theorem Renders.named {entry : Entry} {names : List Bytes} {chain : List (Nat × Frame)}
    (hrenders : log.Renders entry names) (hchain : log.Path entry.frameIndex.toNat chain) :
    List.Forall₂ (fun link name => frameName link.2 = some name) chain.reverse names := by
  obtain ⟨other, hother, hnames⟩ := hrenders
  rw [hchain.unique hother]
  exact .of_map_some hnames

theorem Renders.space_notMem {entry : Entry} {names : List Bytes}
    (hrenders : log.Renders entry names) : (32 : UInt8) ∉ joinNames names := by
  apply notMem_joinNames (by decide)
  intro name hname
  obtain ⟨chain, -, hnames⟩ := hrenders
  obtain ⟨link, -, hlink⟩ := (List.Forall₂.of_map_some hnames).exists_left hname
  exact space_notMem_frameName hlink

/-- The condition on the frames, in terms of the names. -/
theorem Renders.separable_iff {entry : Entry} {names : List Bytes} {chain : List (Nat × Frame)}
    (hrenders : log.Renders entry names) (hchain : log.Path entry.frameIndex.toNat chain) :
    ((∀ link ∈ chain, ∀ text ∈ link.2.texts, (10 : UInt8) ∉ text ∧ (59 : UInt8) ∉ text) ∧
      ∀ link, chain = [link] → ¬link.2.nameless) ↔
    (∀ name ∈ names, (10 : UInt8) ∉ name ∧ (59 : UInt8) ∉ name) ∧ names ≠ [[]] := by
  have hnames := hrenders.named hchain
  apply and_congr
  · constructor
    · intro htexts name hmem
      obtain ⟨link, hlink, heq⟩ := hnames.exists_left hmem
      rw [List.mem_reverse] at hlink
      rw [delimiter_mem_frameName heq (Or.inl rfl), delimiter_mem_frameName heq (Or.inr rfl)]
      constructor
      · rintro ⟨text, htext, hb⟩
        exact (htexts link hlink text htext).1 hb
      · rintro ⟨text, htext, hb⟩
        exact (htexts link hlink text htext).2 hb
    · intro hplain link hmem text htext
      obtain ⟨name, hname, heq⟩ := hnames.exists_right (List.mem_reverse.mpr hmem)
      obtain ⟨hnewline, hsemicolon⟩ := hplain name hname
      rw [delimiter_mem_frameName heq (Or.inl rfl)] at hnewline
      rw [delimiter_mem_frameName heq (Or.inr rfl)] at hsemicolon
      exact ⟨fun hb => hnewline ⟨text, htext, hb⟩, fun hb => hsemicolon ⟨text, htext, hb⟩⟩
  · constructor
    · rintro hnamed rfl
      obtain ⟨link, rest, heq, hrest, hchain⟩ := List.forall₂_cons_right_iff.mp hnames
      rw [List.forall₂_nil_right_iff.mp hrest, List.reverse_eq_iff] at hchain
      exact hnamed link hchain ((frameName_eq_nil heq).mp rfl)
    · rintro hne link rfl hnameless
      obtain ⟨name, rest, heq, hrest, rfl⟩ := List.forall₂_cons_left_iff.mp hnames
      rw [List.forall₂_nil_left_iff.mp hrest, (frameName_eq_nil heq).mpr hnameless] at hne
      exact hne rfl

theorem countedLines_eq (log : Log) (rendered : List (List Bytes)) :
    log.countedLines rendered =
      (rendered.zip (log.entries.map Entry.eventCount)).map fun item =>
        (joinNames item.1, item.2) := by
  rw [countedLines, List.zip_map_left]
  rfl

/-- The lines of the table are texts of stacks. -/
theorem mem_lines {rendered : List (List Bytes)} {line : Bytes}
    (hmem : line ∈ (tally (log.countedLines rendered)).keys) :
    ∃ names ∈ rendered, joinNames names = line := by
  have hzip := mem_keys_tally.mp hmem
  rw [countedLines_eq, List.map_map] at hzip
  obtain ⟨item, hitem, heq⟩ := List.mem_map.mp hzip
  exact ⟨item.1, (List.of_mem_zip hitem).1, heq⟩

theorem lines_no_space {rendered : List (List Bytes)}
    (hrendered : List.Forall₂ log.Renders log.entries rendered) {line : Bytes × Int}
    (hmem : line ∈ (tally (log.countedLines rendered)).entries) : (32 : UInt8) ∉ line.1 := by
  obtain ⟨names, hnames, heq⟩ := mem_lines (List.mem_map_of_mem hmem)
  obtain ⟨entry, -, hrenders⟩ := hrendered.exists_left hnames
  exact heq ▸ hrenders.space_notMem

/-- A stack that occurs is a key of the map that the log represents. -/
theorem mem_stackCounts {rendered : List (List Bytes)}
    (hrendered : List.Forall₂ log.Renders log.entries rendered) {names : List Bytes}
    (hmem : names ∈ rendered) :
    names ∈ (tally (rendered.zip (log.entries.map Entry.eventCount))).keys := by
  have hlength := hrendered.length_eq
  rw [mem_keys_tally, List.map_fst_zip (by rw [List.length_map]; omega)]
  exact hmem

theorem Recovered.separable (hrecovered : log.Recovered fuel) (hwf : log.WellFormed)
    (hfuel : log.frames.length ≤ fuel) : log.Separable := by
  obtain ⟨output, table, pairs, houtput, ⟨rendered, hrendered, rfl⟩, hdecode, -, hlookup⟩ :=
    hrecovered
  rw [formatCollapsed_lines, lineCounts_eq hwf hfuel hrendered, Option.map_some,
    Option.some.injEq] at houtput
  subst houtput
  have hspaces : ∀ line ∈ (tally (log.countedLines rendered)).entries, (32 : UInt8) ∉ line.1 :=
    fun line hmem => lines_no_space hrendered hmem
  have hlines : ∀ line ∈ (tally (log.countedLines rendered)).entries, (10 : UInt8) ∉ line.1 := by
    intro line hmem hnewline
    rw [decode_newline hspaces hmem hnewline] at hdecode
    cases hdecode
  rw [decode_printed hspaces hlines, Option.some.injEq] at hdecode
  subst hdecode
  intro entry hentry chain hchain
  obtain ⟨names, hnames, hrenders⟩ := hrendered.exists_right hentry
  -- the stack is among the decoded ones, so it came out of a split
  have hkey : ∃ text, splitStack text = names := by
    obtain ⟨pair, hpair, rfl⟩ := List.mem_map.mp (mem_stackCounts hrendered hnames)
    obtain ⟨line, -, heq⟩ := List.mem_map.mp ((hlookup pair.1 pair.2).mpr (find_eq_some.mpr hpair))
    exact ⟨line.1, congrArg Prod.fst heq⟩
  rw [hrenders.separable_iff hchain]
  obtain ⟨text, rfl⟩ := hkey
  refine ⟨?_, splitStack_ne text⟩
  intro name hname
  refine ⟨?_, notMem_splitStack hname⟩
  intro hnewline
  have hline : joinNames (splitStack text) ∈ (tally (log.countedLines rendered)).keys := by
    have hlength := hrendered.length_eq
    rw [mem_keys_tally, countedLines, List.map_fst_zip (by simp; omega)]
    exact List.mem_map_of_mem hnames
  obtain ⟨line, hmem, heq⟩ := List.mem_map.mp hline
  exact hlines line hmem (heq ▸ mem_joinNames hname hnewline)

theorem Separable.recovered (hseparable : log.Separable) (hwf : log.WellFormed)
    (hfuel : log.frames.length ≤ fuel) : log.Recovered fuel := by
  obtain ⟨rendered, hrendered⟩ := hwf.renders_all
  have hplain : ∀ names ∈ rendered,
      (∀ name ∈ names, (10 : UInt8) ∉ name ∧ (59 : UInt8) ∉ name) ∧ names ≠ [[]] := by
    intro names hnames
    obtain ⟨entry, hentry, hrenders⟩ := hrendered.exists_left hnames
    obtain ⟨chain, hchain, -⟩ := id hrenders
    exact (hrenders.separable_iff hchain).mp (hseparable entry hentry chain hchain)
  have hsplit : ∀ names ∈ rendered, splitStack (joinNames names) = names := by
    intro names hnames
    exact splitStack_joinNames (fun name hname => ((hplain names hnames).1 name hname).2)
      (hplain names hnames).2
  let items := rendered.zip (log.entries.map Entry.eventCount)
  let lines := (tally (log.countedLines rendered)).entries
  have hpairs : tally (lines.map fun line => (splitStack line.1, line.2)) = tally items := by
    rw [tally_regroup, countedLines_eq, List.map_map]
    congr 1
    calc
      items.map _ = items.map id := by
        apply List.map_congr_left
        intro item hitem
        simp [hsplit item.1 (List.of_mem_zip hitem).1]
      _ = items := List.map_id _
  have hnodup : ((lines.map fun line => (splitStack line.1, line.2)).map Prod.fst).Nodup := by
    have hkeys : (lines.map fun line => (splitStack line.1, line.2)).map Prod.fst =
        (tally (log.countedLines rendered)).keys.map splitStack := by
      rw [List.map_map, keys, List.map_map]
      rfl
    rw [hkeys]
    apply List.Nodup.map_on _ (tally (log.countedLines rendered)).nodup
    intro line hline other hother heq
    obtain ⟨names, hnames, rfl⟩ := mem_lines hline
    obtain ⟨names', hnames', rfl⟩ := mem_lines hother
    rw [hsplit names hnames, hsplit names' hnames'] at heq
    rw [heq]
  refine ⟨lines.flatMap fun line => printLine line.1 line.2, tally items,
    lines.map fun line => (splitStack line.1, line.2), ?_,
    ⟨rendered, hrendered, rfl⟩, ?_, hnodup, ?_⟩
  · rw [formatCollapsed_lines, lineCounts_eq hwf hfuel hrendered, Option.map_some]
  · apply decode_printed (fun line hmem => lines_no_space hrendered hmem)
    intro line hmem
    obtain ⟨names, hnames, heq⟩ := mem_lines (List.mem_map_of_mem hmem)
    rw [← heq]
    apply notMem_joinNames (by decide)
    intro name hname
    exact ((hplain names hnames).1 name hname).1
  · intro names count
    rw [find_eq_some, ← hpairs, tally_of_nodup hnodup]

end Recovery

/-- The output can be decoded exactly when the strings that the names are made
of contain no newline and no semicolon, and no stack is just one frame without a
name. Spaces and null bytes do no harm. -/
theorem collapsed_decodes_iff {memory log : Log} {actions : List Action}
    (hrun : Transition.run step (init memory) actions = some log) {fuel : Nat}
    (hfuel : log.frames.length ≤ fuel) :
    log.Recovered fuel ↔ log.Separable := by
  obtain ⟨hholds, -⟩ := (init_holds memory).run hrun
  exact ⟨fun hrecovered => hrecovered.separable hholds.wellFormed hfuel,
    fun hseparable => hseparable.recovered hholds.wellFormed hfuel⟩

theorem separable_of_frames {log : Log}
    (hframes : ∀ frame ∈ log.frames,
      (∀ text ∈ frame.texts, (10 : UInt8) ∉ text ∧ (59 : UInt8) ∉ text) ∧ ¬frame.nameless) :
    log.Separable := by
  intro entry _ chain hchain
  have hlink : ∀ link ∈ chain, link.2 ∈ log.frames := by
    intro link hmem
    obtain ⟨-, hstored⟩ := getFrame_eq.mp (hchain.node_of_mem hmem).2
    exact List.mem_of_getElem? hstored
  refine ⟨fun link hmem => (hframes link.2 (hlink link hmem)).1, ?_⟩
  rintro link rfl
  exact (hframes link.2 (hlink link (List.mem_singleton_self link))).2

theorem collapsed_decodes_iff_twoLines :
    ∃ log, Transition.run step (init zero) twoLines = some log ∧ log.frames.length = 5 ∧
      log.Recovered 5 := by
  obtain ⟨log, hrun, hcheck⟩ := Transition.run_check step (init zero) twoLines
    (fun log => log.frames.length == 5 && log.frames.all fun frame => decide
      ((∀ text ∈ frame.texts, (10 : UInt8) ∉ text ∧ (59 : UInt8) ∉ text) ∧ ¬frame.nameless))
    (by decide)
  simp only [Bool.and_eq_true, beq_iff_eq, List.all_eq_true, decide_eq_true_eq] at hcheck
  obtain ⟨hlength, hframes⟩ := hcheck
  exact ⟨log, hrun, hlength,
    (collapsed_decodes_iff hrun (Nat.le_of_eq hlength)).mpr (separable_of_frames hframes)⟩

/-- The code of a file outside of any function. -/
def fileCode (filename : Bytes) : ExecuteData where
  func := some
    { type := 2, filename := filename, scope := none, functionName := none
      isClosure := false, lineStart := 1 }
  lineno := 1

/-- A file in a directory whose name ends in a semicolon, and a file that is
included by another one. -/
def semicolonPath : List Action :=
  [.add [fileCode (Bytes.ofString "/x;/y")] 1 10,
   .add [fileCode (Bytes.ofString "/y"), fileCode (Bytes.ofString "/x")] 1 20]

/-- Two stacks merge into one line, and one of them cannot be read back. -/
theorem collapsed_merges :
    ∃ log, Transition.run step (init zero) semicolonPath = some log ∧
      log.formatCollapsed 4 = some (Bytes.ofString "/x;/y 2\n") ∧
      ¬log.Recovered 4 := by
  let frame := userFrame ⟨2, Bytes.ofString "/x;/y", none, none, false, 1⟩ 1 0
  obtain ⟨log, hrun, hcheck⟩ := Transition.run_check step (init zero) semicolonPath
    (fun log => log.frames.length == 4 && log.entries.head? == some ⟨1, 1, 10⟩ &&
      log.getFrame 1 == some frame &&
      log.formatCollapsed 4 == some (Bytes.ofString "/x;/y 2\n")) (by decide)
  simp only [Bool.and_eq_true, beq_iff_eq] at hcheck
  obtain ⟨⟨⟨hlength, hentry⟩, hframe⟩, hformat⟩ := hcheck
  refine ⟨log, hrun, hformat, ?_⟩
  intro hrecovered
  obtain ⟨hholds, -⟩ := (init_holds zero).run hrun
  have hseparable := hrecovered.separable hholds.wellFormed (Nat.le_of_eq hlength)
  have hchain : log.Path 1 [(1, frame)] := .link (by decide) hframe .root
  obtain ⟨htexts, -⟩ := hseparable _ (List.mem_of_head? hentry) _ hchain
  have htext := htexts (1, frame) (List.mem_singleton_self _) (Bytes.ofString "/x;/y") (by decide)
  exact htext.2 (by decide)

end Excimer.Log
