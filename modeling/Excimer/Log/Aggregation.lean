import Excimer.Log.Collapsed

/-!
The aggregation by function as sums over the entries. A function that recurs in
a stack adds the count of the entry once to its inclusive value, which is the
work of the set `ht_unique_names`, and the innermost function alone adds it to
its own.
-/

namespace Excimer.Log

open ParentChain OrderedMap

/-- The display names of the frames of an entry, innermost first. -/
def Displays (log : Log) (entry : Entry) (names : List Bytes) : Prop :=
  ∃ chain, log.Path entry.frameIndex.toNat chain ∧
    chain.map (fun link => displayName link.2) = names.map some

/-- The table for a list of entries, given by their names and counts. -/
structure Aggregates (items : List (List Bytes × Int)) (result : OrderedMap Bytes FuncInfo) :
    Prop where
  occurs : ∀ name, (result.find name).isSome ↔ ∃ item ∈ items, name ∈ item.1
  self : ∀ name, ((result.find name).map FuncInfo.self).getD 0 =
    amountOf (fun names => names.head? = some name) items
  inclusive : ∀ name, ((result.find name).map FuncInfo.inclusive).getD 0 =
    amountOf (fun names => name ∈ names) items

/-- The loop over the frames of an entry when it has visited some of them. The
table is that of an entry with these frames only. -/
structure Visited (items : List (List Bytes × Int)) (count : Int) (visited : List Bytes)
    (state : Aggregation) : Prop where
  aggregates : Aggregates (items ++ [(visited, count)]) state.result
  uniqueNames : ∀ name, name ∈ state.uniqueNames ↔ name ∈ visited
  isTop : state.isTop = visited.isEmpty

section Frames

variable {items : List (List Bytes × Int)} {count : Int} {visited : List Bytes}
  {state next : Aggregation} {frame : Frame} {name : Bytes}

theorem aggrFrame_find (hname : displayName frame = some name)
    (hrun : aggrFrame count state frame = some next) (other : Bytes) :
    next.result.find other =
      if other = name then
        ((state.result.find name).or (some ⟨frameToArray frame, 0, 0⟩)).map fun info =>
          { info with
            self := info.self + if state.isTop then count else 0
            inclusive := info.inclusive + if name ∈ state.uniqueNames then 0 else count }
      else state.result.find other := by
  rw [aggrFrame, hname, Option.map_some] at hrun
  obtain rfl := Option.some.inj hrun
  cases htop : state.isTop <;> by_cases hunique : name ∈ state.uniqueNames <;>
    by_cases hother : other = name <;>
    cases hfind : state.result.find name <;>
    simp [hunique, hother, hfind, find_modify, find_add_eq]

theorem aggrFrame_flags (hname : displayName frame = some name)
    (hrun : aggrFrame count state frame = some next) :
    next.isTop = false ∧
      ∀ other, other ∈ next.uniqueNames ↔ other ∈ state.uniqueNames ∨ other = name := by
  rw [aggrFrame, hname, Option.map_some] at hrun
  obtain rfl := Option.some.inj hrun
  by_cases hunique : name ∈ state.uniqueNames
  · refine ⟨by simp [hunique], fun other => ?_⟩
    simp only [hunique, if_true]
    constructor
    · exact Or.inl
    · rintro (hold | rfl)
      · exact hold
      · exact hunique
  · simp [hunique]

theorem Visited.visit (hvisited : Visited items count visited state)
    (hname : displayName frame = some name) (hrun : aggrFrame count state frame = some next) :
    Visited items count (visited ++ [name]) next := by
  obtain ⟨⟨hoccurs, hself, hinclusive⟩, hunique, htop⟩ := hvisited
  have hfind := aggrFrame_find hname hrun
  obtain ⟨hnext, hnames⟩ := aggrFrame_flags hname hrun
  refine ⟨⟨?_, ?_, ?_⟩, ?_, by simp [hnext]⟩
  · intro other
    have hold := hoccurs other
    rw [hfind]
    by_cases hother : other = name
    · subst hother
      cases state.result.find other <;> simp
    · simp [hother] at hold ⊢
      exact hold
  · intro other
    have hold := hself other
    rw [amountOf_concat] at hold ⊢
    rw [hfind, htop]
    by_cases hother : other = name
    · subst hother
      cases visited with
      | nil => cases hfound : state.result.find other <;> simp [hfound] at hold ⊢ <;> omega
      | cons first rest =>
          cases hfound : state.result.find other <;> simp [hfound] at hold ⊢ <;> omega
    · rw [if_neg hother, hold]
      cases visited with
      | nil => simp [Ne.symm hother]
      | cons first rest => simp
  · intro other
    have hold := hinclusive other
    rw [amountOf_concat] at hold ⊢
    rw [hfind]
    by_cases hother : other = name
    · subst hother
      by_cases hmem : other ∈ visited <;> cases hfound : state.result.find other <;>
        simp [hfound, hmem, hunique] at hold ⊢ <;> omega
    · rw [if_neg hother, hold]
      simp [hother]
  · intro other
    rw [hnames, hunique, List.mem_append, List.mem_singleton]

theorem Visited.visit_all {chain : List (Nat × Frame)} {names : List Bytes}
    (hnames : List.Forall₂ (fun link name => displayName link.2 = some name) chain names)
    (hvisited : Visited items count visited state) :
    ∃ final, chain.foldlM (fun state link => aggrFrame count state link.2) state = some final ∧
      Visited items count (visited ++ names) final := by
  induction hnames generalizing visited state with
  | nil => exact ⟨state, rfl, by rwa [List.append_nil]⟩
  | @cons link name chain rest hname _ ih =>
      have hsome : (aggrFrame count state link.2).isSome := by
        rw [aggrFrame, hname, Option.isSome_map]
        rfl
      obtain ⟨next, hnext⟩ := Option.isSome_iff_exists.mp hsome
      obtain ⟨final, hfinal, hall⟩ := ih (hvisited.visit hname hnext)
      refine ⟨final, ?_, by rwa [List.append_cons]⟩
      rw [List.foldlM_cons, hnext]
      exact hfinal

theorem Aggregates.start {result : OrderedMap Bytes FuncInfo} (hresult : Aggregates items result)
    (count : Int) : Visited items count [] ⟨result, [], true⟩ where
  aggregates :=
    { occurs := fun name => by simpa using hresult.occurs name
      self := fun name => by rw [amountOf_concat]; simpa using hresult.self name
      inclusive := fun name => by rw [amountOf_concat]; simpa using hresult.inclusive name }
  uniqueNames := by simp
  isTop := rfl

end Frames

section Entries

variable {log : Log} {fuel : Nat}

theorem aggrEntry_spec (hwf : log.WellFormed) (hfuel : log.frames.length ≤ fuel)
    {items : List (List Bytes × Int)} {result : OrderedMap Bytes FuncInfo}
    (hresult : Aggregates items result) {entry : Entry} (hentry : entry ∈ log.entries)
    {names : List Bytes} (hdisplays : log.Displays entry names) :
    ∃ next, log.aggrEntry fuel result entry = some next ∧
      Aggregates (items ++ [(names, entry.eventCount)]) next := by
  obtain ⟨chain, hchain, hnames⟩ := hdisplays
  have hlt := hwf.entry_lt entry hentry
  have hlength := hchain.length_le hwf hlt
  obtain ⟨final, hfinal, hvisited⟩ :=
    (hresult.start entry.eventCount).visit_all (.of_map_some hnames)
  refine ⟨final.result, ?_, hvisited.aggregates⟩
  rw [aggrEntry, hchain.walk_eq _ (by omega), hfinal, Option.map_some]

/-- The set of names is emptied between entries, so that the entries add up. -/
theorem aggrEntries_spec (hwf : log.WellFormed) (hfuel : log.frames.length ≤ fuel)
    {entries : List Entry} {displayed : List (List Bytes)}
    (hdisplayed : List.Forall₂ (fun entry names => entry ∈ log.entries ∧ log.Displays entry names)
      entries displayed) {items : List (List Bytes × Int)} {result : OrderedMap Bytes FuncInfo}
    (hresult : Aggregates items result) :
    ∃ final, entries.foldlM (log.aggrEntry fuel) result = some final ∧
      Aggregates (items ++ displayed.zip (entries.map Entry.eventCount)) final := by
  induction hdisplayed generalizing items result with
  | nil => exact ⟨result, rfl, by simpa using hresult⟩
  | @cons entry names entries displayed hhead _ ih =>
      obtain ⟨next, hnext, hstep⟩ := aggrEntry_spec hwf hfuel hresult hhead.1 hhead.2
      obtain ⟨final, hfinal, hall⟩ := ih hstep
      refine ⟨final, ?_, ?_⟩
      · rw [List.foldlM_cons, hnext]
        exact hfinal
      · rw [List.map_cons, List.zip_cons_cons, List.append_cons]
        exact hall

theorem WellFormed.displays (hwf : log.WellFormed) {entry : Entry} (hentry : entry ∈ log.entries) :
    ∃ names, log.Displays entry names := by
  obtain ⟨chain, hchain, -⟩ := hwf.path (Nat.le_refl _) (hwf.entry_lt entry hentry)
  have hname : ∀ link ∈ chain, ∃ name, displayName link.2 = some name := by
    intro link hlink
    exact Option.isSome_iff_exists.mp
      (nameWith_isSome id (hwf.filename_isSome (hchain.node_of_mem hlink).2))
  obtain ⟨names, hnames⟩ := List.exists_forall₂ hname
  refine ⟨names, chain, hchain, ?_⟩
  rw [← List.forall₂_eq_eq_eq, List.forall₂_map_left_iff, List.forall₂_map_right_iff]
  exact hnames

end Entries

section Sums

variable {items : List (List Bytes × Int)} {result : OrderedMap Bytes FuncInfo}

theorem Aggregates.info (hresult : Aggregates items result) {name : Bytes} {info : FuncInfo}
    (hmem : (name, info) ∈ result.entries) :
    info.self = amountOf (fun names => names.head? = some name) items ∧
      info.inclusive = amountOf (fun names => name ∈ names) items := by
  have hfind := find_eq_some.mpr hmem
  have hself := hresult.self name
  have hinclusive := hresult.inclusive name
  rw [hfind] at hself hinclusive
  exact ⟨hself, hinclusive⟩

theorem Aggregates.mem_keys (hresult : Aggregates items result) {name : Bytes} :
    name ∈ result.keys ↔ ∃ item ∈ items, name ∈ item.1 := by
  rw [← hresult.occurs]
  constructor
  · intro hmem
    by_contra hnone
    exact find_eq_none.mp (by simpa using hnone) hmem
  · intro hsome
    by_contra hmem
    rw [find_eq_none.mpr hmem] at hsome
    cases hsome

theorem Aggregates.empty : Aggregates [] OrderedMap.empty where
  occurs := by simp [OrderedMap.find, OrderedMap.empty]
  self := by simp [OrderedMap.find, OrderedMap.empty, amountOf]
  inclusive := by simp [OrderedMap.find, OrderedMap.empty, amountOf]

/-- Every entry with frames has one innermost function. -/
theorem Aggregates.sum_self (hresult : Aggregates items result) :
    (result.entries.map fun entry => entry.2.self).sum =
      (items.map Prod.snd).sum - amountOf (fun names => names = []) items := by
  have hself : result.entries.map (fun entry => entry.2.self) =
      result.keys.map fun name => amountOf (fun names => names.head? = some name) items := by
    rw [keys, List.map_map]
    apply List.map_congr_left
    intro entry hmem
    exact (hresult.info hmem).1
  have hheads : ∀ item ∈ items, ∀ name, item.1.head? = some name → name ∈ result.keys := by
    intro item hitem name hhead
    exact hresult.mem_keys.mpr ⟨item, hitem, List.mem_of_mem_head? hhead⟩
  have hparts := sum_amountOf_parts result.nodup (fun names : List Bytes => names.head?) hheads
  have hempty : (fun names : List Bytes => !decide (names = [])) =
      fun names => names.head?.isSome := by
    funext names
    cases names <;> simp
  have hrest := amountOf_add_not (fun names : List Bytes => decide (names = [])) items
  rw [hempty] at hrest
  calc
    (result.entries.map fun entry => entry.2.self).sum =
        amountOf (fun names => names.head?.isSome) items := by rw [hself]; exact hparts
    _ = (items.map Prod.snd).sum - amountOf (fun names => names = []) items := by omega

/-- With counts that are numbers of events, own time is part of the inclusive
time, and that is part of the total. -/
theorem Aggregates.bounds (hresult : Aggregates items result)
    (hnonneg : ∀ item ∈ items, 0 ≤ item.2) {name : Bytes} {info : FuncInfo}
    (hmem : (name, info) ∈ result.entries) :
    info.self ≤ info.inclusive ∧ info.inclusive ≤ (items.map Prod.snd).sum := by
  obtain ⟨hself, hinclusive⟩ := hresult.info hmem
  rw [hself, hinclusive, ← amountOf_true]
  refine ⟨amountOf_mono hnonneg ?_, amountOf_mono hnonneg fun _ _ => rfl⟩
  intro names hhead
  exact decide_eq_true (List.mem_of_mem_head? (of_decide_eq_true hhead))

theorem byInclusive_pairwise (entries : List (Bytes × FuncInfo)) :
    (entries.insertionSort fun a b => b.2.inclusive ≤ a.2.inclusive).Pairwise
      fun a b => b.2.inclusive ≤ a.2.inclusive := by
  have htotal : Std.Total fun a b : Bytes × FuncInfo => b.2.inclusive ≤ a.2.inclusive :=
    ⟨fun a b => Int.le_total b.2.inclusive a.2.inclusive⟩
  have htrans : IsTrans (Bytes × FuncInfo) fun a b => b.2.inclusive ≤ a.2.inclusive :=
    ⟨fun a b c hab hbc => Int.le_trans hbc hab⟩
  exact List.pairwise_insertionSort _ entries

end Sums

/-- The keys are the display names that occur. Own and inclusive counts are sums
over the entries, each of them counted once. The result is sorted by inclusive
count, and the own counts add up to the count of the log without the entries
that have no frames. -/
theorem aggregation_sums {memory log : Log} {actions : List Action}
    (hrun : Transition.run step (init memory) actions = some log) {fuel : Nat}
    (hfuel : log.frames.length ≤ fuel) :
    ∃ result displayed, log.aggrByFunc fuel = some result ∧
      List.Forall₂ log.Displays log.entries displayed ∧
      ∃ items, items = displayed.zip (log.entries.map Entry.eventCount) ∧
        (result.map Prod.fst).Nodup ∧
        (∀ name, name ∈ result.map Prod.fst ↔ ∃ names ∈ displayed, name ∈ names) ∧
        (∀ name info, (name, info) ∈ result →
          info.self = amountOf (fun names => names.head? = some name) items ∧
          info.inclusive = amountOf (fun names => name ∈ names) items) ∧
        result.Pairwise (fun first second => second.2.inclusive ≤ first.2.inclusive) ∧
        (result.map fun entry => entry.2.self).sum =
          log.eventCount - amountOf (fun names => names = []) items ∧
        ((∀ entry ∈ log.entries, 0 ≤ entry.eventCount) →
          ∀ name info, (name, info) ∈ result →
            info.self ≤ info.inclusive ∧ info.inclusive ≤ log.eventCount) := by
  obtain ⟨hholds, -⟩ := (init_holds memory).run hrun
  have hwf := hholds.wellFormed
  obtain ⟨displayed, hdisplayed⟩ := List.exists_forall₂
    fun entry (hentry : entry ∈ log.entries) => hwf.displays hentry
  have hboth := (List.forall₂_and_left _ _).mpr
    ⟨fun (entry : Entry) (hmem : entry ∈ log.entries) => hmem, hdisplayed⟩
  obtain ⟨table, htable, hresult⟩ := aggrEntries_spec hwf hfuel hboth Aggregates.empty
  rw [List.nil_append] at hresult
  have hlength := hdisplayed.length_eq
  have hnames : (displayed.zip (log.entries.map Entry.eventCount)).map Prod.fst = displayed :=
    List.map_fst_zip (by rw [List.length_map]; omega)
  have hcounts : (displayed.zip (log.entries.map Entry.eventCount)).map Prod.snd =
      log.entries.map Entry.eventCount := List.map_snd_zip (by rw [List.length_map]; omega)
  have hperm := List.perm_insertionSort
    (fun a b : Bytes × FuncInfo => b.2.inclusive ≤ a.2.inclusive) table.entries
  refine ⟨_, displayed, by rw [aggrByFunc, htable, Option.map_some], hdisplayed, _, rfl, ?_, ?_, ?_,
    ?_, ?_, ?_⟩
  · exact (hperm.map Prod.fst).nodup_iff.mpr table.nodup
  · intro name
    rw [(hperm.map Prod.fst).mem_iff]
    refine hresult.mem_keys.trans ?_
    nth_rewrite 2 [← hnames]
    simp only [List.mem_map, exists_exists_and_eq_and]
  · intro name info hmem
    exact hresult.info (hperm.mem_iff.mp hmem)
  · exact byInclusive_pairwise table.entries
  · rw [(hperm.map fun entry : Bytes × FuncInfo => entry.2.self).sum_eq, hresult.sum_self, hcounts,
      run_eventCount hrun]
  · intro hnonneg name info hmem
    rw [run_eventCount hrun, ← hcounts]
    apply hresult.bounds _ (hperm.mem_iff.mp hmem)
    intro item hitem
    obtain ⟨entry, hentry, heq⟩ := List.mem_map.mp (List.of_mem_zip hitem).2
    exact heq ▸ hnonneg entry hentry

/-- A function calls itself, and one sample has no frames. -/
def recursion : List Action :=
  let f := Bytes.ofString "f"
  let g := Bytes.ofString "g"
  [.add [plainCall g 7] 1 10, .add [plainCall f 3, plainCall f 4, plainCall g 7] 2 20,
   .add [] 5 30]

theorem aggregation_sums_recursion :
    ∃ log result, Transition.run step (init zero) recursion = some log ∧ log.eventCount = 8 ∧
      log.aggrByFunc 6 = some result ∧
      (result.map fun entry => (entry.1, entry.2.self, entry.2.inclusive)) =
        [(Bytes.ofString "g", 1, 3), (Bytes.ofString "f", 2, 2)] ∧
      (∀ entry ∈ log.entries, 0 ≤ entry.eventCount) ∧
      ∀ name info, (name, info) ∈ result → info.self ≤ info.inclusive ∧ info.inclusive ≤ 8 := by
  obtain ⟨log, hrun, hcheck⟩ := Transition.run_check step (init zero) recursion
    (fun log => log.frames.length == 4 && log.eventCount == 8 &&
      log.entries.all (fun entry => 0 ≤ entry.eventCount) &&
      (log.aggrByFunc 6).any fun result =>
        (result.map fun entry => (entry.1, entry.2.self, entry.2.inclusive)) ==
          [(Bytes.ofString "g", 1, 3), (Bytes.ofString "f", 2, 2)]) (by decide)
  simp only [Bool.and_eq_true, beq_iff_eq, List.all_eq_true, decide_eq_true_eq] at hcheck
  obtain ⟨⟨⟨hlength, hcount⟩, hnonneg⟩, hany⟩ := hcheck
  obtain ⟨result, -, hresult, -, -, -, -, -, -, -, -, hbounds⟩ :=
    aggregation_sums hrun (show log.frames.length ≤ 6 by omega)
  rw [hresult, Option.any_some] at hany
  rw [hcount] at hbounds
  exact ⟨log, result, hrun, hcount, hresult, eq_of_beq hany, hnonneg, hbounds hnonneg⟩

end Excimer.Log
