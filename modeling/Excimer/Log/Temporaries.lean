import Excimer.Lib.Ledger
import Excimer.Log.Aggregation
import Excimer.Log.Speedscope
import Mathlib.Data.List.Dedup

/-!
The strings that the exporting functions make for themselves. A hash table counts a
reference to each of its keys and gives it up when the table is cleaned or destroyed.
`zend_string_release` frees a string whose last reference it gives up, and
`zend_string_delref` does not. What the functions compute does not depend on the
counts, so the loops here are those of `Excimer.Log.Export` with the references beside
them.
-/

namespace Excimer.Log

open CountedHeap ParentChain

/-- `zend_hash_clean` and `zend_hash_destroy`, as far as the keys are concerned. -/
def releaseKeys (strings : Heap Bytes) (keys : List ℕ) : Option (Heap Bytes) :=
  keys.foldlM (fun strings key => strings.release key) strings

/-- A string becomes the key of a table, unless the table has an element with that
key. -/
def addKey (present : Bool) (strings : Heap Bytes) (keys : List ℕ) (key : ℕ) :
    Option (Heap Bytes × List ℕ) :=
  if present then some (strings, keys)
  else (strings.addRef key).map fun next => (next, keys ++ [key])

theorem addKey_spec (present : Bool) {strings : Heap Bytes}
    {keys others leaked : List ℕ} {key : ℕ}
    (hledger : strings.Ledger (key :: (keys ++ others)) leaked) :
    ∃ next kept, addKey present strings keys key = some (next, kept) ∧
      kept = (if present then keys else keys ++ [key]) ∧ next.fresh = strings.fresh ∧
      next.Ledger (key :: (kept ++ others)) leaked := by
  by_cases hpresent : present
  · refine ⟨strings, keys, ?_, ?_, rfl, hledger⟩
    · rw [addKey, if_pos hpresent]
    · rw [if_pos hpresent]
  · obtain ⟨next, hadd, hfresh, hledger⟩ := hledger.addRef List.mem_cons_self
    refine ⟨next, keys ++ [key], ?_, ?_, hfresh, ?_⟩
    · rw [addKey, if_neg hpresent, hadd, Option.map_some]
    · rw [if_neg hpresent]
    · rw [← List.append_cons]
      exact hledger.perm (List.perm_middle.symm.cons key)

section Aggregation

/-- `excimer_log_aggr_by_func` inside its loops, with the strings that are the keys
of `ht_result` and `ht_unique_names`. -/
structure CountedAggregation where
  state : Aggregation
  strings : Heap Bytes
  resultKeys : List ℕ
  uniqueKeys : List ℕ

variable (spSelf spInclusive : ℕ)

/-- A new element of `ht_result` refers to its key, and the array in it to
`sp_self` and `sp_inclusive`. -/
def addResultKey (c : CountedAggregation) (name : Bytes) (spName : ℕ) : Option CountedAggregation :=
  if (c.state.result.find name).isSome then some c
  else
    (c.strings.addRef spSelf).bind fun first =>
      (first.addRef spInclusive).bind fun second =>
        (second.addRef spName).map fun third =>
          { c with strings := third, resultKeys := c.resultKeys ++ [spName] }

def addUniqueKey (c : CountedAggregation) (name : Bytes) (spName : ℕ) : Option CountedAggregation :=
  (addKey (c.state.uniqueNames.contains name) c.strings c.uniqueKeys spName).map fun kept =>
    { c with strings := kept.1, uniqueKeys := kept.2 }

/-- One turn of the loop over the frames of an entry. -/
def aggrFrameCounted (eventCount : Int) (c : CountedAggregation) (frame : Frame) :
    Option CountedAggregation :=
  (displayName frame).bind fun name =>
    let spName := c.strings.fresh
    (addResultKey spSelf spInclusive { c with strings := c.strings.alloc name } name spName).bind
      fun added =>
        (addUniqueKey added name spName).bind fun noted =>
          (aggrFrame eventCount c.state frame).bind fun state =>
            (noted.strings.delRef spName).map fun strings =>
              { noted with state := state, strings := strings }

def aggrEntryCounted (log : Log) (fuel : Nat) (c : CountedAggregation) (entry : Entry) :
    Option CountedAggregation :=
  (walk (fun i => log.getFrame i) (fun frame => frame.prevIndex.toNat)
    (fun c _ frame => aggrFrameCounted spSelf spInclusive entry.eventCount c frame) fuel
    entry.frameIndex.toNat { c with state := ⟨c.state.result, [], true⟩ }).bind fun c =>
      (releaseKeys c.strings c.uniqueKeys).map fun strings =>
        { c with strings := strings, uniqueKeys := [] }

/-- What `excimer_log_aggr_by_func` returns, with the keys of the table and the
strings that are left. -/
structure AggregationOutcome where
  result : List (Bytes × FuncInfo)
  strings : Heap Bytes
  resultKeys : List ℕ

/-- `excimer_log_aggr_by_func`. The first two strings are `sp_inclusive` and
`sp_self`. -/
def aggrByFuncCounted (log : Log) (fuel : Nat) : Option AggregationOutcome :=
  let common := (Heap.empty.alloc (Bytes.ofString "inclusive")).alloc (Bytes.ofString "self")
  (log.entries.foldlM (log.aggrEntryCounted 1 0 fuel)
    ⟨⟨OrderedMap.empty, [], true⟩, common, [], []⟩).bind fun c =>
      (c.strings.delRef 1).bind fun first =>
        (first.delRef 0).map fun second =>
          { result := c.state.result.entries.insertionSort fun a b => b.2.inclusive ≤ a.2.inclusive
            strings := second
            resultKeys := c.resultKeys }

/-- The references of `ht_result` and of the arrays in it. -/
def resultRefs (keys : List ℕ) : List ℕ := keys.flatMap fun key => [key, spSelf, spInclusive]

/-- The references that the tables and the two local variables hold. -/
def CountedAggregation.held (c : CountedAggregation) : List ℕ :=
  c.uniqueKeys ++ (resultRefs spSelf spInclusive c.resultKeys ++ [spSelf, spInclusive])

/-- The loops when they have left behind the strings `leaked`. -/
structure Accounted (c : CountedAggregation) (leaked : List ℕ) : Prop where
  ledger : c.strings.Ledger (c.held spSelf spInclusive) leaked
  unique : ∀ name ∈ c.state.uniqueNames, name ∈ c.state.result.keys
  nodup : c.state.uniqueNames.Nodup
  keys : c.resultKeys.length = c.state.result.keys.length

variable {spSelf spInclusive} {c : CountedAggregation} {leaked : List ℕ} {name : Bytes}

theorem addResultKey_spec {spName : ℕ} (name : Bytes)
    (hledger : c.strings.Ledger (spName :: c.held spSelf spInclusive) leaked) :
    ∃ next, addResultKey spSelf spInclusive c name spName = some next ∧ next.state = c.state ∧
      next.uniqueKeys = c.uniqueKeys ∧
      next.resultKeys =
        (if name ∈ c.state.result.keys then c.resultKeys else c.resultKeys ++ [spName]) ∧
      next.strings.Ledger (spName :: next.held spSelf spInclusive) leaked := by
  by_cases hkey : name ∈ c.state.result.keys
  · have hfound := OrderedMap.find_isSome.mpr hkey
    exact ⟨c, by rw [addResultKey, if_pos hfound], rfl, rfl, by rw [if_pos hkey], hledger⟩
  · have hself : spSelf ∈ spName :: c.held spSelf spInclusive := by simp [CountedAggregation.held]
    obtain ⟨first, hfirst, -, hledger⟩ := hledger.addRef hself
    have hinclusive : spInclusive ∈ spSelf :: spName :: c.held spSelf spInclusive := by
      simp [CountedAggregation.held]
    obtain ⟨second, hsecond, -, hledger⟩ := hledger.addRef hinclusive
    have hname : spName ∈ spInclusive :: spSelf :: spName :: c.held spSelf spInclusive := by simp
    obtain ⟨third, hthird, -, hledger⟩ := hledger.addRef hname
    refine ⟨{ c with strings := third, resultKeys := c.resultKeys ++ [spName] }, ?_, rfl, rfl,
      by rw [if_neg hkey], hledger.perm ?_⟩
    · rw [addResultKey, if_neg (mt OrderedMap.find_isSome.mp hkey), hfirst, Option.bind_some,
        hsecond, Option.bind_some, hthird, Option.map_some]
    · rw [List.perm_iff_count]
      intro key
      simp only [CountedAggregation.held, resultRefs, List.flatMap_append, List.flatMap_cons,
        List.flatMap_nil, List.count_append, List.count_cons, List.count_nil]
      omega

theorem addUniqueKey_spec {spName : ℕ} (name : Bytes)
    (hledger : c.strings.Ledger (spName :: c.held spSelf spInclusive) leaked) :
    ∃ next, addUniqueKey c name spName = some next ∧ next.resultKeys = c.resultKeys ∧
      next.uniqueKeys =
        (if name ∈ c.state.uniqueNames then c.uniqueKeys else c.uniqueKeys ++ [spName]) ∧
      next.strings.Ledger (spName :: next.held spSelf spInclusive) leaked := by
  obtain ⟨strings, kept, hadd, hkept, -, hledger⟩ :=
    addKey_spec (c.state.uniqueNames.contains name) hledger
  simp only [List.contains_iff_mem] at hkept
  refine ⟨{ c with strings := strings, uniqueKeys := kept }, ?_, rfl, hkept, hledger⟩
  rw [addUniqueKey, hadd, Option.map_some]

theorem aggrFrame_keys {frame : Frame} (hname : displayName frame = some name) (count : Int)
    (state : Aggregation) :
    ∃ next, aggrFrame count state frame = some next ∧
      next.result.keys = (if name ∈ state.result.keys then state.result.keys
        else state.result.keys ++ [name]) ∧
      next.uniqueNames = if name ∈ state.uniqueNames then state.uniqueNames
        else state.uniqueNames ++ [name] := by
  rw [aggrFrame, hname, Option.map_some]
  refine ⟨_, rfl, ?_⟩
  cases htop : state.isTop <;> by_cases hunique : name ∈ state.uniqueNames <;>
    simp [hunique, OrderedMap.keys_modify, OrderedMap.keys_add]

/-- The string of a name is a key of one of the tables unless the name has occurred
in the entry. -/
theorem Accounted.ledger_frame (hacc : Accounted spSelf spInclusive c leaked) (name : Bytes) :
    ∃ noted, ((addResultKey spSelf spInclusive { c with strings := c.strings.alloc name } name
        c.strings.fresh).bind fun added => addUniqueKey added name c.strings.fresh) = some noted ∧
      noted.strings.Ledger (c.strings.fresh :: noted.held spSelf spInclusive) leaked ∧
      (c.strings.fresh ∈ noted.held spSelf spInclusive ↔ name ∉ c.state.uniqueNames) ∧
      noted.resultKeys.length =
        c.resultKeys.length + (if name ∈ c.state.result.keys then 0 else 1) := by
  obtain ⟨added, hadded, hstate, hunique, hresult, hledger⟩ :=
    addResultKey_spec (c := { c with strings := c.strings.alloc name }) name
      (hacc.ledger.alloc name)
  obtain ⟨noted, hnoted, hsame, hkeys, hledger⟩ := addUniqueKey_spec name hledger
  rw [hresult] at hsame
  rw [hstate, hunique] at hkeys
  refine ⟨noted, by rw [hadded, Option.bind_some, hnoted], hledger, ?_, ?_⟩
  · by_cases hmem : name ∈ c.state.uniqueNames
    · have hheld : noted.held spSelf spInclusive = c.held spSelf spInclusive := by
        rw [CountedAggregation.held, hkeys, hsame, if_pos hmem, if_pos (hacc.unique name hmem)]
        rfl
      rw [hheld]
      exact iff_of_false hacc.ledger.not_fresh.1 (not_not_intro hmem)
    · have hkey : c.strings.fresh ∈ noted.uniqueKeys := by simp [hkeys, hmem]
      exact iff_of_true (List.mem_append_left _ hkey) hmem
  · rw [hsame]
    split <;> simp

/-- A turn leaves its string behind when the name has occurred in the entry. -/
theorem Accounted.aggrFrame (hacc : Accounted spSelf spInclusive c leaked) {frame : Frame}
    (hname : displayName frame = some name) (count : Int) :
    ∃ next leaked', aggrFrameCounted spSelf spInclusive count c frame = some next ∧
      Log.aggrFrame count c.state frame = some next.state ∧
      Accounted spSelf spInclusive next leaked' ∧
      leaked'.length + next.state.uniqueNames.length =
        leaked.length + c.state.uniqueNames.length + 1 := by
  obtain ⟨noted, hnoted, hledger, hheld, hlength⟩ := hacc.ledger_frame name
  obtain ⟨state, hstate, hkeys, hnames⟩ := aggrFrame_keys hname count c.state
  obtain ⟨strings, hstrings, -, hledger⟩ := hledger.delRef
  obtain ⟨added, hadded, hnoted⟩ := Option.bind_eq_some_iff.mp hnoted
  refine ⟨{ noted with state := state, strings := strings }, _, ?_, hstate,
    ⟨hledger, ?_, ?_, ?_⟩, ?_⟩
  · rw [aggrFrameCounted, hname, Option.bind_some]
    simp only [hadded, hnoted, hstate, hstrings, Option.bind_some, Option.map_some]
  · intro other hother
    simp only [hkeys, hnames] at hother ⊢
    have hold := hacc.unique other
    grind
  · simp only [hnames]
    split
    · exact hacc.nodup
    · rw [← List.concat_eq_append]
      exact hacc.nodup.concat ‹_›
  · simp only [hkeys, hlength, hacc.keys]
    split <;> simp
  · simp only [hnames, hheld]
    by_cases hunique : name ∈ c.state.uniqueNames <;> simp [hunique] <;> omega

theorem Accounted.aggrFrames (hacc : Accounted spSelf spInclusive c leaked) (count : Int)
    {chain : List (Nat × Frame)} {names : List Bytes}
    (hnames : List.Forall₂ (fun link name => displayName link.2 = some name) chain names) :
    ∃ final leaked',
      chain.foldlM (fun c link => aggrFrameCounted spSelf spInclusive count c link.2) c =
        some final ∧
      chain.foldlM (fun state link => Log.aggrFrame count state link.2) c.state =
        some final.state ∧
      Accounted spSelf spInclusive final leaked' ∧
      (∀ name, name ∈ final.state.uniqueNames ↔ name ∈ c.state.uniqueNames ∨ name ∈ names) ∧
      leaked'.length + final.state.uniqueNames.length =
        leaked.length + c.state.uniqueNames.length + names.length := by
  induction hnames generalizing c leaked with
  | nil => exact ⟨c, leaked, rfl, rfl, hacc, by simp, rfl⟩
  | @cons link name chain rest hname _ ih =>
      obtain ⟨next, mid, hnext, hstate, hacc, hlength⟩ := hacc.aggrFrame hname count
      obtain ⟨final, leaked', hfinal, hplain, hacc, hmem, hrest⟩ := ih hacc
      refine ⟨final, leaked', ?_, ?_, hacc, ?_, ?_⟩
      · rw [List.foldlM_cons, hnext]
        exact hfinal
      · rw [List.foldlM_cons, hstate]
        exact hplain
      · intro other
        rw [hmem, (aggrFrame_flags hname hstate).2, List.mem_cons, or_assoc]
      · rw [List.length_cons]
        omega

/-- The strings that the occurrences of a name after its first one in an entry leave
behind. -/
def repeats (names : List Bytes) : ℕ := names.length - names.dedup.length

variable {log : Log} {fuel : Nat}

theorem Accounted.aggrEntry (hacc : Accounted spSelf spInclusive c leaked)
    (hwf : log.WellFormed) (hfuel : log.frames.length ≤ fuel)
    {entry : Entry} (hentry : entry ∈ log.entries) {names : List Bytes}
    (hdisplays : log.Displays entry names) :
    ∃ next leaked', log.aggrEntryCounted spSelf spInclusive fuel c entry = some next ∧
      log.aggrEntry fuel c.state.result entry = some next.state.result ∧
      Accounted spSelf spInclusive next leaked' ∧ next.uniqueKeys = [] ∧
      leaked'.length = leaked.length + repeats names := by
  obtain ⟨chain, hchain, hnames⟩ := hdisplays
  have hlt := hwf.entry_lt entry hentry
  have hlength := hchain.length_le hwf hlt
  have hstart : Accounted spSelf spInclusive
      { c with state := ⟨c.state.result, [], true⟩ } leaked :=
    ⟨hacc.ledger, by simp, List.nodup_nil, hacc.keys⟩
  obtain ⟨final, leaked', hfinal, hplain, hacc', hmem, hcount⟩ :=
    hstart.aggrFrames entry.eventCount (.of_map_some hnames)
  obtain ⟨strings, hstrings, -, hledger⟩ := hacc'.ledger.releaseEach
  refine ⟨{ final with strings := strings, uniqueKeys := [] }, leaked', ?_, ?_,
    ⟨hledger, hacc'.unique, hacc'.nodup, hacc'.keys⟩, rfl, ?_⟩
  · rw [aggrEntryCounted, hchain.walk_eq _ (by omega), hfinal, Option.bind_some, releaseKeys,
      hstrings, Option.map_some]
  · rw [Log.aggrEntry, hchain.walk_eq _ (by omega), hplain, Option.map_some]
  · have hperm : final.state.uniqueNames.Perm names.dedup := by
      rw [List.perm_ext_iff_of_nodup hacc'.nodup (List.nodup_dedup names)]
      intro name
      rw [hmem, List.mem_dedup]
      simp
    have hunique := hperm.length_eq
    have hle := (List.dedup_sublist names).length_le
    simp only [List.length_nil] at hcount
    rw [repeats]
    omega

theorem Accounted.aggrEntries (hacc : Accounted spSelf spInclusive c leaked)
    (hclean : c.uniqueKeys = []) (hwf : log.WellFormed) (hfuel : log.frames.length ≤ fuel)
    {entries : List Entry} {displayed : List (List Bytes)}
    (hdisplayed : List.Forall₂ (fun entry names => entry ∈ log.entries ∧ log.Displays entry names)
      entries displayed) :
    ∃ final leaked',
      entries.foldlM (log.aggrEntryCounted spSelf spInclusive fuel) c = some final ∧
      entries.foldlM (log.aggrEntry fuel) c.state.result = some final.state.result ∧
      Accounted spSelf spInclusive final leaked' ∧ final.uniqueKeys = [] ∧
      leaked'.length = leaked.length + (displayed.map repeats).sum := by
  induction hdisplayed generalizing c leaked with
  | nil => exact ⟨c, leaked, rfl, rfl, hacc, hclean, rfl⟩
  | @cons entry names entries displayed hhead _ ih =>
      obtain ⟨next, mid, hnext, hplain, hacc, hclean, hlength⟩ :=
        hacc.aggrEntry hwf hfuel hhead.1 hhead.2
      obtain ⟨final, leaked', hfinal, hrest, hacc, hclean, hsum⟩ := ih hacc hclean
      refine ⟨final, leaked', ?_, ?_, hacc, hclean, ?_⟩
      · rw [List.foldlM_cons, hnext]
        exact hfinal
      · rw [List.foldlM_cons, hplain]
        exact hrest
      · rw [hsum, hlength, List.map_cons, List.sum_cons, Nat.add_assoc]

/-- The last two references to `sp_self` and `sp_inclusive` are those of the table, if
it has an element. -/
theorem Accounted.finish (hacc : Accounted 1 0 c leaked) (hclean : c.uniqueKeys = []) :
    ∃ first second leaked', c.strings.delRef 1 = some first ∧ first.delRef 0 = some second ∧
      second.Ledger (resultRefs 1 0 c.resultKeys) leaked' ∧
      leaked'.length = leaked.length + if c.resultKeys = [] then 2 else 0 := by
  have hledger : c.strings.Ledger (1 :: 0 :: resultRefs 1 0 c.resultKeys) leaked := by
    apply hacc.ledger.perm
    rw [CountedAggregation.held, hclean, List.nil_append]
    exact List.perm_append_comm
  obtain ⟨first, hfirst, -, hledger⟩ := hledger.delRef
  obtain ⟨second, hsecond, -, hledger⟩ := hledger.delRef
  refine ⟨first, second, _, hfirst, hsecond, hledger, ?_⟩
  cases c.resultKeys with
  | nil => simp [resultRefs]
  | cons key rest => simp [resultRefs]

end Aggregation

/-- The aggregation uses no string that is freed, and what it returns does not depend
on the strings. When the caller has dropped the returned array, the strings that are
left over are one for each repetition of a name within an entry, and the two column
names if the array was empty. -/
theorem aggregation_leaves {memory log : Log} {actions : List Action}
    (hrun : Transition.run step (init memory) actions = some log) {fuel : Nat}
    (hfuel : log.frames.length ≤ fuel) :
    ∃ outcome final displayed, ∃ leaked : List ℕ, log.aggrByFuncCounted fuel = some outcome ∧
      log.aggrByFunc fuel = some outcome.result ∧
      outcome.resultKeys.length = outcome.result.length ∧
      releaseKeys outcome.strings (resultRefs 1 0 outcome.resultKeys) = some final ∧
      List.Forall₂ log.Displays log.entries displayed ∧
      leaked.Nodup ∧ (∀ id, (final.cell id).isSome ↔ id ∈ leaked) ∧
      leaked.length =
        (displayed.map repeats).sum + if outcome.result = [] then 2 else 0 := by
  obtain ⟨hholds, -⟩ := (init_holds memory).run hrun
  have hwf := hholds.wellFormed
  obtain ⟨displayed, hdisplayed⟩ := List.exists_forall₂
    fun entry (hentry : entry ∈ log.entries) => hwf.displays hentry
  have hboth := (List.forall₂_and_left _ _).mpr
    ⟨fun (entry : Entry) (hmem : entry ∈ log.entries) => hmem, hdisplayed⟩
  have hstart : Accounted 1 0 ⟨⟨OrderedMap.empty, [], true⟩,
      (Heap.empty.alloc (Bytes.ofString "inclusive")).alloc (Bytes.ofString "self"), [], []⟩ [] :=
    ⟨(Heap.Ledger.empty.alloc _).alloc _, by simp, List.nodup_nil, rfl⟩
  obtain ⟨c, before, hcounted, hplain, hacc, hclean, hsum⟩ :=
    hstart.aggrEntries rfl hwf hfuel hboth
  obtain ⟨first, second, leaked, hfirst, hsecond, hledger, hlength⟩ := hacc.finish hclean
  rw [← List.append_nil (resultRefs 1 0 c.resultKeys)] at hledger
  obtain ⟨final, hfinal, -, hledger⟩ := hledger.releaseEach
  have hkeys : c.resultKeys.length = c.state.result.entries.length := by
    rw [hacc.keys, OrderedMap.keys, List.length_map]
  refine ⟨⟨c.state.result.entries.insertionSort fun a b => b.2.inclusive ≤ a.2.inclusive, second,
    c.resultKeys⟩, final, displayed, leaked, ?_, ?_, ?_, hfinal, hdisplayed, hledger.nodup, ?_, ?_⟩
  · simp only [aggrByFuncCounted, hcounted, hfirst, hsecond, Option.bind_some, Option.map_some]
  · rw [aggrByFunc, hplain, Option.map_some]
  · rw [List.length_insertionSort]
    exact hkeys
  · intro id
    simpa using hledger.alive id
  · have hempty : c.resultKeys = [] ↔ (c.state.result.entries.insertionSort
        fun a b => b.2.inclusive ≤ a.2.inclusive) = [] := by
      rw [← List.length_eq_zero_iff, ← List.length_eq_zero_iff, List.length_insertionSort, hkeys]
    rw [hlength, hsum]
    simp only [hempty, List.length_nil, Nat.zero_add]

theorem aggregation_leaves_recursion :
    ∃ log outcome final, Transition.run step (init zero) recursion = some log ∧
      log.aggrByFuncCounted 6 = some outcome ∧
      releaseKeys outcome.strings (resultRefs 1 0 outcome.resultKeys) = some final ∧
      final.cells.filterMap (Option.map Cell.value) = [Bytes.ofString "f"] := by
  obtain ⟨log, hrun, hcheck⟩ := Transition.run_check step (init zero) recursion
    (fun log => log.frames.length == 4 && (log.aggrByFuncCounted 6).any fun outcome =>
      (releaseKeys outcome.strings (resultRefs 1 0 outcome.resultKeys)).any fun final =>
        final.cells.filterMap (Option.map Cell.value) == [Bytes.ofString "f"]) (by decide)
  simp only [Bool.and_eq_true, beq_iff_eq] at hcheck
  obtain ⟨hlength, hany⟩ := hcheck
  obtain ⟨outcome, final, -, -, houtcome, -, -, hfinal, -⟩ :=
    aggregation_leaves hrun (show log.frames.length ≤ 6 by omega)
  rw [houtcome, Option.any_some, hfinal, Option.any_some] at hany
  exact ⟨log, outcome, final, hrun, houtcome, hfinal, eq_of_beq hany⟩

section Collapsed

/-- The table `ht_lines` with the strings that are its keys, those apart that are
interned. -/
structure CountedLines where
  lines : OrderedMap Bytes Int
  strings : Heap Bytes
  lineKeys : List ℕ

/-- One turn of the loop over `ht_frame_counts`. Nothing gives up the reference of
`str_line`. The text of a stack without frames is the empty string of the engine. -/
def addLineCounted (log : Log) (fuel : Nat) (c : CountedLines) (group : UInt32 × Int) :
    Option CountedLines :=
  (log.framePtrs fuel group.1).bind fun ptrs =>
    (collapsedLine ptrs).bind fun line =>
      if ptrs.isEmpty then some { c with lines := countUp c.lines line group.2 }
      else
        (addKey (c.lines.find line).isSome (c.strings.alloc line) c.lineKeys c.strings.fresh).map
          fun kept => ⟨countUp c.lines line group.2, kept.1, kept.2⟩

/-- `excimer_log_format_collapsed`, with the strings that are left beside the
output. -/
def formatCollapsedCounted (log : Log) (fuel : Nat) : Option (Bytes × Heap Bytes) :=
  let frameCounts := log.entries.foldl
    (fun counts entry => countUp counts entry.frameIndex entry.eventCount)
    (OrderedMap.empty : OrderedMap UInt32 Int)
  (frameCounts.entries.foldlM (log.addLineCounted fuel)
    ⟨OrderedMap.empty, Heap.empty, []⟩).bind fun c =>
      (releaseKeys c.strings c.lineKeys).map fun strings =>
        (c.lines.entries.flatMap fun line => printLine line.1 line.2, strings)

variable {log : Log} {fuel : Nat}

/-- Every string that has been made is still referred to by its turn of the loop. -/
def CountedLines.Kept (c : CountedLines) : Prop :=
  c.strings.Ledger (c.lineKeys ++ List.range c.strings.fresh) []

theorem CountedLines.Kept.addLine {c : CountedLines} (hkept : c.Kept) {group : UInt32 × Int}
    {chain : List (Nat × Frame)} (hchain : log.Path group.1.toNat chain)
    (hfuel : chain.length ≤ fuel) {line : Bytes}
    (hline : collapsedLine (chain.map Prod.snd) = some line) :
    ∃ next, log.addLineCounted fuel c group = some next ∧
      next.lines = countUp c.lines line group.2 ∧ next.Kept ∧
      next.strings.fresh = c.strings.fresh + if group.1 = 0 then 0 else 1 := by
  have hptrs : log.framePtrs fuel group.1 = some (chain.map Prod.snd) :=
    hchain.walk_collect (fun _ frame => frame) hfuel
  have hzero : chain.isEmpty ↔ group.1 = 0 := by
    rw [← UInt32.toNat_inj]
    generalize group.1.toNat = i at hchain
    cases hchain with
    | root => simp
    | link hne _ _ => simpa using hne
  by_cases hindex : group.1 = 0
  · refine ⟨{ c with lines := countUp c.lines line group.2 }, ?_, rfl, hkept, ?_⟩
    · rw [addLineCounted, hptrs, Option.bind_some, hline, Option.bind_some, List.isEmpty_map,
        if_pos (hzero.mpr hindex)]
    · rw [if_pos hindex]
      rfl
  · obtain ⟨next, kept, hadd, -, hfresh, hledger⟩ :=
      addKey_spec (c.lines.find line).isSome (hkept.alloc line)
    rw [Heap.fresh_alloc] at hfresh
    refine ⟨⟨countUp c.lines line group.2, next, kept⟩, ?_, rfl, ?_, ?_⟩
    · rw [addLineCounted, hptrs, Option.bind_some, hline, Option.bind_some, List.isEmpty_map,
        if_neg (fun hempty => hindex (hzero.mp hempty)), hadd, Option.map_some]
    · rw [CountedLines.Kept, hfresh, List.range_succ, ← List.append_assoc]
      exact hledger.perm (List.perm_append_singleton _ _).symm
    · rw [if_neg hindex]
      exact hfresh

theorem WellFormed.path_line (hwf : log.WellFormed) (hfuel : log.frames.length ≤ fuel)
    {entry : Entry} (hentry : entry ∈ log.entries) :
    ∃ chain line, log.Path entry.frameIndex.toNat chain ∧ chain.length ≤ fuel ∧
      collapsedLine (chain.map Prod.snd) = some line := by
  obtain ⟨chain, hchain, hlength⟩ := hwf.path hfuel (hwf.entry_lt entry hentry)
  have hnames : ∀ frame ∈ chain.map Prod.snd, frame.filename.isSome := by
    intro frame hframe
    obtain ⟨link, hlink, rfl⟩ := List.mem_map.mp hframe
    exact hwf.filename_isSome (hchain.node_of_mem hlink).2
  obtain ⟨line, hline⟩ := Option.isSome_iff_exists.mp (collapsedLine_isSome hnames)
  exact ⟨chain, line, hchain, hlength, hline⟩

/-- The number of strings made for a list of groups. -/
def lineStrings (groups : List (UInt32 × Int)) : ℕ :=
  (groups.filter fun group => group.1 ≠ 0).length

theorem CountedLines.Kept.addLines {c : CountedLines} (hkept : c.Kept)
    {groups : List (UInt32 × Int)}
    (hgroups : ∀ group ∈ groups, ∃ chain line, log.Path group.1.toNat chain ∧
      chain.length ≤ fuel ∧ collapsedLine (chain.map Prod.snd) = some line) :
    ∃ final, groups.foldlM (log.addLineCounted fuel) c = some final ∧
      groups.foldlM (fun lines group => (log.framePtrs fuel group.1).bind fun ptrs =>
        (collapsedLine ptrs).map fun line => countUp lines line group.2) c.lines =
        some final.lines ∧
      final.Kept ∧ final.strings.fresh = c.strings.fresh + lineStrings groups := by
  induction groups generalizing c with
  | nil => exact ⟨c, rfl, rfl, hkept, rfl⟩
  | cons group rest ih =>
      obtain ⟨chain, line, hchain, hfuel, hline⟩ := hgroups group List.mem_cons_self
      obtain ⟨next, hnext, hlines, hkept, hfresh⟩ := hkept.addLine hchain hfuel hline
      obtain ⟨final, hfinal, hplain, hkept, hrest⟩ :=
        ih hkept fun other hmem => hgroups other (List.mem_cons_of_mem _ hmem)
      have hptrs : log.framePtrs fuel group.1 = some (chain.map Prod.snd) :=
        hchain.walk_collect (fun _ frame => frame) hfuel
      refine ⟨final, ?_, ?_, hkept, ?_⟩
      · rw [List.foldlM_cons, hnext]
        exact hfinal
      · rw [List.foldlM_cons, hptrs, Option.bind_some, hline, Option.map_some, ← hlines]
        exact hplain
      · rw [hrest, hfresh, lineStrings, lineStrings, List.filter_cons]
        by_cases hindex : group.1 = 0 <;> simp [hindex]
        omega

end Collapsed

/-- Formatting leaves behind one string for each different stack with frames, whether
or not the texts of the stacks differ. Each of these strings has one reference, which
nobody holds. -/
theorem collapsed_leaves {memory log : Log} {actions : List Action}
    (hrun : Transition.run step (init memory) actions = some log) {fuel : Nat}
    (hfuel : log.frames.length ≤ fuel) :
    ∃ output strings number, log.formatCollapsedCounted fuel = some (output, strings) ∧
      log.formatCollapsed fuel = some output ∧
      number = ((log.entries.map Entry.frameIndex).eraseDups.filter (· ≠ 0)).length ∧
      (∀ id, (strings.cell id).isSome ↔ id < number) ∧
      ∀ id < number, strings.count id = 1 := by
  obtain ⟨hholds, -⟩ := (init_holds memory).run hrun
  have hwf := hholds.wellFormed
  let indexed := log.entries.map fun entry => (entry.frameIndex, entry.eventCount)
  have hcounts : log.entries.foldl
      (fun counts entry => countUp counts entry.frameIndex entry.eventCount) OrderedMap.empty =
        OrderedMap.tally indexed := by
    rw [OrderedMap.tally, List.foldl_map]
    rfl
  have hkeys : (OrderedMap.tally indexed).keys = (log.entries.map Entry.frameIndex).eraseDups := by
    rw [OrderedMap.keys_tally, List.map_map]
    rfl
  have hgroups : ∀ group ∈ (OrderedMap.tally indexed).entries, ∃ chain line,
      log.Path group.1.toNat chain ∧ chain.length ≤ fuel ∧
        collapsedLine (chain.map Prod.snd) = some line := by
    intro group hmem
    have hkey : group.1 ∈ (OrderedMap.tally indexed).keys := List.mem_map_of_mem hmem
    rw [hkeys, List.mem_eraseDups] at hkey
    obtain ⟨entry, hentry, hindex⟩ := List.mem_map.mp hkey
    rw [← hindex]
    exact hwf.path_line hfuel hentry
  have hempty : CountedLines.Kept ⟨OrderedMap.empty, Heap.empty, []⟩ := Heap.Ledger.empty
  obtain ⟨c, hcounted, hplain, hkept, hfresh⟩ := hempty.addLines hgroups
  obtain ⟨strings, hstrings, -, hledger⟩ := hkept.releaseEach
  have hnumber : c.strings.fresh =
      ((log.entries.map Entry.frameIndex).eraseDups.filter (· ≠ 0)).length := by
    rw [hfresh, lineStrings, ← hkeys, OrderedMap.keys, List.filter_map, List.length_map]
    exact Nat.zero_add _
  refine ⟨c.lines.entries.flatMap fun line => printLine line.1 line.2, strings, c.strings.fresh,
    ?_, ?_, hnumber, ?_, ?_⟩
  · rw [formatCollapsedCounted, hcounts, hcounted, Option.bind_some, releaseKeys, hstrings,
      Option.map_some]
  · rw [formatCollapsed_lines, lineCounts, hcounts, hplain, Option.map_some]
  · intro id
    simpa using hledger.alive id
  · intro id hid
    rw [hledger.counted]
    exact List.count_eq_one_of_mem List.nodup_range (List.mem_range.mpr hid)

theorem collapsed_leaves_twoLines :
    ∃ log output strings, Transition.run step (init zero) twoLines = some log ∧
      log.formatCollapsedCounted 6 = some (output, strings) ∧
      strings.cells.filterMap (Option.map fun cell => (cell.count, cell.value)) =
        [(1, Bytes.ofString "g;f"), (1, Bytes.ofString "g"), (1, Bytes.ofString "g;f")] := by
  obtain ⟨log, hrun, hcheck⟩ := Transition.run_check step (init zero) twoLines
    (fun log => log.frames.length == 5 && (log.formatCollapsedCounted 6).any fun result =>
      result.2.cells.filterMap (Option.map fun cell => (cell.count, cell.value)) ==
        [(1, Bytes.ofString "g;f"), (1, Bytes.ofString "g"), (1, Bytes.ofString "g;f")])
    (by decide)
  simp only [Bool.and_eq_true, beq_iff_eq] at hcheck
  obtain ⟨hlength, hany⟩ := hcheck
  obtain ⟨output, strings, -, hcounted, -⟩ :=
    collapsed_leaves hrun (show log.frames.length ≤ 6 by omega)
  rw [hcounted, Option.any_some] at hany
  exact ⟨log, output, strings, hrun, hcounted, eq_of_beq hany⟩

section Speedscope

/-- The tables of the loop that builds the frames array, with the strings that are the
keys of `ht_indexes_by_key`. -/
structure CountedShared where
  shared : SharedFrames
  strings : Heap Bytes
  indexKeys : List ℕ

/-- One turn of the loop that builds the frames array. -/
def addSharedFrameCounted (c : CountedShared) (frame : Frame) : Option CountedShared :=
  (getSpeedscopeFrameKey frame).bind fun key =>
    (addKey (c.shared.indexesByKey.find key).isSome (c.strings.alloc key) c.indexKeys
      c.strings.fresh).bind fun kept =>
        (addSharedFrame c.shared frame).bind fun shared =>
          (kept.1.release c.strings.fresh).map fun strings => ⟨shared, strings, kept.2⟩

def sharedFramesCounted (log : Log) : Option (SharedFrames × Heap Bytes) :=
  ((log.frames.drop 1).foldlM addSharedFrameCounted
    ⟨⟨[], OrderedMap.empty, [0]⟩, Heap.empty, []⟩).bind fun c =>
      (releaseKeys c.strings c.indexKeys).map fun strings => (c.shared, strings)

variable {c : CountedShared}

theorem addSharedFrameCounted_spec (hledger : c.strings.Ledger c.indexKeys []) {frame : Frame}
    (hname : frame.filename.isSome) :
    ∃ next, addSharedFrameCounted c frame = some next ∧
      addSharedFrame c.shared frame = some next.shared ∧
      next.strings.Ledger next.indexKeys [] := by
  obtain ⟨shared, hshared⟩ := Option.isSome_iff_exists.mp (addSharedFrame_isSome c.shared hname)
  obtain ⟨key, hkey, -⟩ := Option.bind_eq_some_iff.mp hshared
  rw [← List.append_nil c.indexKeys] at hledger
  obtain ⟨mid, kept, hadd, -, -, hledger⟩ :=
    addKey_spec (c.shared.indexesByKey.find key).isSome (hledger.alloc key)
  obtain ⟨strings, hstrings, -, hledger⟩ := hledger.release
  rw [List.append_nil] at hledger
  refine ⟨⟨shared, strings, kept⟩, ?_, hshared, hledger⟩
  rw [addSharedFrameCounted, hkey, Option.bind_some, hadd, Option.bind_some, hshared,
    Option.bind_some, hstrings, Option.map_some]

theorem addSharedFramesCounted_spec (hledger : c.strings.Ledger c.indexKeys [])
    {frames : List Frame} (hnames : ∀ frame ∈ frames, frame.filename.isSome) :
    ∃ final, frames.foldlM addSharedFrameCounted c = some final ∧
      frames.foldlM addSharedFrame c.shared = some final.shared ∧
      final.strings.Ledger final.indexKeys [] := by
  induction frames generalizing c with
  | nil => exact ⟨c, rfl, rfl, hledger⟩
  | cons frame rest ih =>
      obtain ⟨next, hnext, hshared, hledger⟩ :=
        addSharedFrameCounted_spec hledger (hnames frame List.mem_cons_self)
      obtain ⟨final, hfinal, hplain, hledger⟩ :=
        ih hledger fun other hmem => hnames other (List.mem_cons_of_mem _ hmem)
      refine ⟨final, ?_, ?_, hledger⟩
      · rw [List.foldlM_cons, hnext]
        exact hfinal
      · rw [List.foldlM_cons, hshared]
        exact hplain

end Speedscope

/-- The speedscope format gives up every key that it makes, in the loop or with the
table, and uses none after that. -/
theorem speedscope_leaves_nothing {memory log : Log} {actions : List Action}
    (hrun : Transition.run step (init memory) actions = some log) :
    ∃ shared strings, log.sharedFramesCounted = some (shared, strings) ∧
      log.sharedFrames = some shared ∧ ∀ id, strings.cell id = none := by
  obtain ⟨hholds, -⟩ := (init_holds memory).run hrun
  have hwf := hholds.wellFormed
  have hnames : ∀ frame ∈ log.frames.drop 1, frame.filename.isSome := by
    intro frame hmem
    obtain ⟨i, hi⟩ := List.mem_iff_getElem?.mp hmem
    rw [List.getElem?_drop] at hi
    exact hwf.filename_isSome
      (getFrame_eq.mpr ⟨Nat.ne_of_gt (Nat.lt_add_right i Nat.one_pos), hi⟩)
  obtain ⟨c, hcounted, hplain, hledger⟩ :=
    addSharedFramesCounted_spec (c := ⟨⟨[], OrderedMap.empty, [0]⟩, Heap.empty, []⟩)
      Heap.Ledger.empty hnames
  rw [← List.append_nil c.indexKeys] at hledger
  obtain ⟨strings, hstrings, -, hledger⟩ := hledger.releaseEach
  refine ⟨c.shared, strings, ?_, hplain, ?_⟩
  · rw [sharedFramesCounted, hcounted, Option.bind_some, releaseKeys, hstrings, Option.map_some]
  · intro id
    simpa using hledger.alive id

theorem speedscope_leaves_nothing_twoLines :
    ∃ log shared strings, Transition.run step (init zero) twoLines = some log ∧
      log.sharedFramesCounted = some (shared, strings) ∧
      shared.frameIndexes = [0, 0, 1, 0, 1] ∧ strings.cells.length = 4 ∧
      ∀ id, strings.cell id = none := by
  obtain ⟨log, hrun, hcheck⟩ := Transition.run_check step (init zero) twoLines
    (fun log => log.sharedFramesCounted.any fun result =>
      result.1.frameIndexes == [0, 0, 1, 0, 1] && result.2.cells.length == 4) (by decide)
  obtain ⟨shared, strings, hcounted, -, hnone⟩ := speedscope_leaves_nothing hrun
  rw [hcounted, Option.any_some, Bool.and_eq_true, beq_iff_eq, beq_iff_eq] at hcheck
  exact ⟨log, shared, strings, hrun, hcounted, hcheck.1, hcheck.2, hnone⟩

end Excimer.Log
