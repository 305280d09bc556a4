import Excimer.Lib.OrderedMap
import Mathlib.Algebra.BigOperators.Group.List.Basic
import Mathlib.Data.List.Induction
import Mathlib.Algebra.Order.Ring.Int

/-!
Sums of amounts by key. A table that is built by adding amounts one after
another lists the keys in the order of their first appearance, each with the
sum of its amounts. Grouping may be done in stages: a table can be grouped
again by a function of its keys, and the result is the same as if the items had
been grouped by that function at once.
-/

namespace OrderedMap

variable {K L : Type*}

/-- The sum of the amounts of the items that satisfy a test of their keys. -/
def amountOf (test : K → Bool) (items : List (K × Int)) : Int :=
  ((items.filter fun item => test item.1).map Prod.snd).sum

theorem amountOf_append (test : K → Bool) (first second : List (K × Int)) :
    amountOf test (first ++ second) = amountOf test first + amountOf test second := by
  simp [amountOf]

theorem amountOf_cons (test : K → Bool) (item : K × Int) (rest : List (K × Int)) :
    amountOf test (item :: rest) = (if test item.1 then item.2 else 0) + amountOf test rest := by
  cases htest : test item.1 <;> simp [amountOf, htest]

theorem amountOf_concat (test : K → Bool) (items : List (K × Int)) (key : K) (term : Int) :
    amountOf test (items ++ [(key, term)]) =
      amountOf test items + if test key then term else 0 := by
  rw [amountOf_append, amountOf_cons]
  simp [amountOf]

theorem amountOf_map (f : K → L) (test : L → Bool) (items : List (K × Int)) :
    amountOf test (items.map fun item => (f item.1, item.2)) =
      amountOf (fun key => test (f key)) items := by
  simp [amountOf, List.filter_map, Function.comp_def]

theorem amountOf_mono {test weaker : K → Bool} {items : List (K × Int)}
    (hnonneg : ∀ item ∈ items, 0 ≤ item.2) (himp : ∀ key, test key → weaker key) :
    amountOf test items ≤ amountOf weaker items := by
  induction items with
  | nil => exact Int.le_refl _
  | cons item rest ih =>
      have hrest := ih fun other hmem => hnonneg other (List.mem_cons_of_mem _ hmem)
      have hitem := hnonneg item List.mem_cons_self
      have hkey := himp item.1
      rw [amountOf_cons, amountOf_cons]
      split <;> split <;> first | omega | simp_all

theorem amountOf_add_not (test : K → Bool) (items : List (K × Int)) :
    amountOf test items + amountOf (fun key => !test key) items = (items.map Prod.snd).sum := by
  induction items with
  | nil => rfl
  | cons item rest ih =>
      rw [amountOf_cons, amountOf_cons, List.map_cons, List.sum_cons, ← ih]
      cases test item.1 <;> simp <;> omega

theorem amountOf_true (items : List (K × Int)) :
    amountOf (fun _ => true) items = (items.map Prod.snd).sum := by
  simp [amountOf]

theorem sum_indicator [DecidableEq L] {keys : List L} (hnodup : keys.Nodup) {key : L}
    (hmem : key ∈ keys) (term : Int) :
    (keys.map fun other => if key = other then term else 0).sum = term := by
  induction keys with
  | nil => cases hmem
  | cons first rest ih =>
      obtain ⟨hfresh, hrest⟩ := List.nodup_cons.mp hnodup
      rw [List.map_cons, List.sum_cons]
      rcases List.mem_cons.mp hmem with rfl | hlater
      · have hnone : rest.map (fun other => if key = other then term else 0) =
            rest.map fun _ => 0 := by
          apply List.map_congr_left
          intro other hother
          have hne : key ≠ other := fun heq => hfresh (heq ▸ hother)
          rw [if_neg hne]
        simp [hnone]
      · have hne : key ≠ first := fun heq => hfresh (heq ▸ hlater)
        rw [if_neg hne, ih hrest hlater, Int.zero_add]

/-- The amounts of the parts of a partition add up to the amount of all items
that belong to some part. -/
theorem sum_amountOf_parts [DecidableEq L] {parts : List L} (hnodup : parts.Nodup)
    (part : K → Option L) {items : List (K × Int)}
    (hparts : ∀ item ∈ items, ∀ index, part item.1 = some index → index ∈ parts) :
    (parts.map fun index => amountOf (fun key => part key = some index) items).sum =
      amountOf (fun key => (part key).isSome) items := by
  induction items with
  | nil => simp [amountOf]
  | cons item rest ih =>
      have hrest := ih fun other hmem => hparts other (List.mem_cons_of_mem _ hmem)
      simp only [amountOf_cons, List.sum_map_add, hrest]
      cases hpart : part item.1 with
      | none => simp
      | some index =>
          have hmem := hparts item List.mem_cons_self index hpart
          have hone := sum_indicator hnodup hmem item.2
          simp [hone]

theorem ext_entries {V : Type*} {m m' : OrderedMap K V} (h : m.entries = m'.entries) : m = m' := by
  cases m
  cases m'
  cases h
  rfl

variable [DecidableEq K] [DecidableEq L]

/-- `m[key] += term`, where a missing key is added with the value zero first. -/
def bump (m : OrderedMap K Int) (key : K) (term : Int) : OrderedMap K Int :=
  (m.add key 0).modify key (· + term)

def tally (items : List (K × Int)) : OrderedMap K Int :=
  items.foldl (fun m item => m.bump item.1 item.2) empty

theorem tally_append_singleton (items : List (K × Int)) (item : K × Int) :
    tally (items ++ [item]) = (tally items).bump item.1 item.2 := by
  simp [tally]

theorem entries_bump_new {m : OrderedMap K Int} {key : K} (hnew : key ∉ m.keys) (term : Int) :
    (m.bump key term).entries = m.entries ++ [(key, term)] := by
  have hkept : m.entries.map (fun entry =>
      if entry.1 = key then (entry.1, entry.2 + term) else entry) = m.entries := by
    conv_rhs => rw [← List.map_id m.entries]
    apply List.map_congr_left
    intro entry hmem
    have hne : entry.1 ≠ key := fun heq => hnew (heq ▸ List.mem_map_of_mem hmem)
    simp [hne]
  rw [bump, add, dif_neg hnew]
  simp only [modify, List.map_append, hkept, List.map_singleton, if_true, Int.zero_add]

theorem entries_bump_old {m : OrderedMap K Int} {key : K} (hold : key ∈ m.keys) (term : Int) :
    (m.bump key term).entries = m.entries.map fun entry =>
      if entry.1 = key then (entry.1, entry.2 + term) else entry := by
  rw [bump, add, dif_pos hold]
  rfl

theorem keys_bump (m : OrderedMap K Int) (key : K) (term : Int) :
    (m.bump key term).keys = if key ∈ m.keys then m.keys else m.keys ++ [key] := by
  rw [bump, keys_modify]
  split
  · next hold => rw [add, dif_pos hold]
  · next hnew =>
      rw [add, dif_neg hnew]
      simp [keys]

/-- The distinct items in the order of their first appearance. -/
def firsts (items : List K) : List K := items.eraseDups

@[simp] theorem mem_firsts {items : List K} {item : K} : item ∈ firsts items ↔ item ∈ items :=
  List.mem_eraseDups

theorem firsts_concat (items : List K) (item : K) :
    firsts (items ++ [item]) =
      if item ∈ items then firsts items else firsts items ++ [item] := by
  rw [firsts, List.eraseDups_append]
  by_cases hmem : item ∈ items <;> simp [List.removeAll, hmem, List.eraseDups_cons, firsts]

/-- The keys stand in the order of their first appearance. -/
theorem keys_tally (items : List (K × Int)) :
    (tally items).keys = firsts (items.map Prod.fst) := by
  induction items using List.reverseRecOn with
  | nil => rfl
  | append_singleton items item ih =>
      rw [tally_append_singleton, keys_bump, ih, List.map_append, List.map_singleton,
        firsts_concat]
      simp only [mem_firsts]

theorem mem_keys_tally {items : List (K × Int)} {key : K} :
    key ∈ (tally items).keys ↔ key ∈ items.map Prod.fst := by
  rw [keys_tally, mem_firsts]

theorem amountOf_modify (test : K → Bool) {key : K} (term : Int) {entries : List (K × Int)}
    (hnodup : (entries.map Prod.fst).Nodup) (hmem : key ∈ entries.map Prod.fst) :
    amountOf test (entries.map fun entry =>
        if entry.1 = key then (entry.1, entry.2 + term) else entry) =
      amountOf test entries + if test key then term else 0 := by
  induction entries with
  | nil => cases hmem
  | cons entry rest ih =>
      obtain ⟨hfresh, hrest⟩ := List.nodup_cons.mp hnodup
      rw [List.map_cons, amountOf_cons, amountOf_cons]
      by_cases heq : entry.1 = key
      · have hkept : rest.map (fun entry =>
            if entry.1 = key then (entry.1, entry.2 + term) else entry) = rest := by
          conv_rhs => rw [← List.map_id rest]
          apply List.map_congr_left
          intro other hother
          have hne : other.1 ≠ key := fun hkey =>
            hfresh (heq.trans hkey.symm ▸ List.mem_map_of_mem hother)
          simp [hne]
        rw [hkept, if_pos heq, heq]
        split <;> omega
      · have hlater : key ∈ rest.map Prod.fst := by
          rcases List.mem_cons.mp hmem with hhead | htail
          · exact absurd hhead.symm heq
          · exact htail
        rw [if_neg heq, ih hrest hlater]
        omega

theorem amountOf_bump (test : K → Bool) (m : OrderedMap K Int) (key : K) (term : Int) :
    amountOf test (m.bump key term).entries =
      amountOf test m.entries + if test key then term else 0 := by
  by_cases hold : key ∈ m.keys
  · rw [entries_bump_old hold]
    exact amountOf_modify test term m.nodup hold
  · rw [entries_bump_new hold, amountOf_concat]

/-- No amount is lost or counted twice, whatever keys are looked at. -/
theorem amountOf_tally (test : K → Bool) (items : List (K × Int)) :
    amountOf test (tally items).entries = amountOf test items := by
  induction items using List.reverseRecOn with
  | nil => rfl
  | append_singleton items item ih =>
      rw [tally_append_singleton, amountOf_bump, ih, amountOf_concat]

theorem sum_tally (items : List (K × Int)) :
    ((tally items).entries.map Prod.snd).sum = (items.map Prod.snd).sum := by
  rw [← amountOf_true, ← amountOf_true, amountOf_tally]

theorem amountOf_key {entries : List (K × Int)} (hnodup : (entries.map Prod.fst).Nodup)
    {entry : K × Int} (hmem : entry ∈ entries) :
    amountOf (· = entry.1) entries = entry.2 := by
  induction entries with
  | nil => cases hmem
  | cons first rest ih =>
      obtain ⟨hfresh, hrest⟩ := List.nodup_cons.mp hnodup
      rw [amountOf_cons]
      rcases List.mem_cons.mp hmem with rfl | hlater
      · have hnone : rest.filter (fun item => item.1 = entry.1) = [] := by
          rw [List.filter_eq_nil_iff]
          intro other hother heq
          exact hfresh (of_decide_eq_true heq ▸ List.mem_map_of_mem hother)
        simp [amountOf, hnone]
      · have hne : first.1 ≠ entry.1 := fun heq => hfresh (heq ▸ List.mem_map_of_mem hlater)
        simp [hne, ih hrest hlater]

/-- A table is determined by the order of its keys and the amounts by key. -/
theorem entries_eq (m : OrderedMap K Int) :
    m.entries = m.keys.map fun key => (key, amountOf (· = key) m.entries) := by
  rw [keys, List.map_map]
  calc
    m.entries = m.entries.map id := (List.map_id _).symm
    _ = _ := by
      apply List.map_congr_left
      intro entry hmem
      simp [amountOf_key m.nodup hmem]

/-- The table in closed form: the distinct keys in the order of their first
appearance, each with the sum of its amounts. -/
theorem entries_tally (items : List (K × Int)) :
    (tally items).entries =
      (firsts (items.map Prod.fst)).map fun key => (key, amountOf (· = key) items) := by
  rw [entries_eq (tally items), keys_tally]
  simp only [amountOf_tally]

theorem firsts_map_firsts (f : K → L) (items : List K) :
    firsts ((firsts items).map f) = firsts (items.map f) := by
  induction items using List.reverseRecOn with
  | nil => rfl
  | append_singleton items item ih =>
      rw [firsts_concat, List.map_append, List.map_singleton, firsts_concat]
      split
      · next hmem => rw [ih, if_pos (List.mem_map_of_mem hmem)]
      · rw [List.map_append, List.map_singleton, firsts_concat, ih]
        simp only [List.mem_map, mem_firsts]

/-- Grouping in two stages is grouping by the composed key. -/
theorem tally_regroup (f : K → L) (items : List (K × Int)) :
    tally ((tally items).entries.map fun entry => (f entry.1, entry.2)) =
      tally (items.map fun item => (f item.1, item.2)) := by
  apply ext_entries
  have hkeys : ((tally items).entries.map fun entry => (f entry.1, entry.2)).map Prod.fst =
      (firsts (items.map Prod.fst)).map f := by
    rw [← keys_tally, keys, List.map_map, List.map_map]
    rfl
  have hitems : (items.map fun item => (f item.1, item.2)).map Prod.fst =
      (items.map Prod.fst).map f := by
    rw [List.map_map, List.map_map]
    rfl
  rw [entries_tally (items.map _), entries_tally (List.map _ (tally items).entries), hkeys, hitems,
    firsts_map_firsts]
  simp only [amountOf_map, amountOf_tally]

/-- Items with distinct keys are their own table. -/
theorem tally_of_nodup {items : List (K × Int)} (hnodup : (items.map Prod.fst).Nodup) :
    (tally items).entries = items := by
  induction items using List.reverseRecOn with
  | nil => rfl
  | append_singleton items item ih =>
      rw [List.map_append, List.map_singleton] at hnodup
      obtain ⟨hitems, -, hdisjoint⟩ := List.nodup_append.mp hnodup
      have hnew : item.1 ∉ (tally items).keys := by
        rw [mem_keys_tally]
        intro hmem
        exact hdisjoint _ hmem _ (List.mem_singleton_self _) rfl
      rw [tally_append_singleton, entries_bump_new hnew, ih hitems]

end OrderedMap
