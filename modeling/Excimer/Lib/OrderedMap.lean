import Mathlib.Data.List.Nodup

/-!
Finite maps that remember the order in which their keys were added, as the
hash tables of the PHP engine do. Keys are distinct by construction.
-/

structure OrderedMap (K V : Type*) where
  entries : List (K × V)
  nodup : (entries.map Prod.fst).Nodup

namespace OrderedMap

variable {K V : Type*}

def empty : OrderedMap K V := ⟨[], List.nodup_nil⟩

def keys (m : OrderedMap K V) : List K := m.entries.map Prod.fst

variable [DecidableEq K]

def find (m : OrderedMap K V) (key : K) : Option V := m.entries.lookup key

theorem find_eq_none {m : OrderedMap K V} {key : K} : m.find key = none ↔ key ∉ m.keys := by
  simp only [find, List.lookup_eq_none_iff, keys, List.mem_map, bne_iff_ne, ne_eq]
  constructor
  · rintro hall ⟨entry, hmem, rfl⟩
    exact hall entry hmem rfl
  · rintro hnone entry hmem rfl
    exact hnone ⟨entry, hmem, rfl⟩

theorem find_isSome {m : OrderedMap K V} {key : K} : (m.find key).isSome ↔ key ∈ m.keys := by
  rw [← not_iff_not, ← find_eq_none, Option.not_isSome_iff_eq_none]

theorem find_eq_some {m : OrderedMap K V} {key : K} {value : V} :
    m.find key = some value ↔ (key, value) ∈ m.entries := by
  obtain ⟨entries, hnodup⟩ := m
  simp only [find]
  induction entries with
  | nil => simp
  | cons entry rest ih =>
      obtain ⟨hfresh, hrest⟩ := List.nodup_cons.mp hnodup
      rw [List.lookup_cons, List.mem_cons]
      by_cases heq : key = entry.1
      · subst heq
        have hlater : (entry.1, value) ∉ rest := fun hmem =>
          hfresh (List.mem_map.mpr ⟨_, hmem, rfl⟩)
        simp [hlater, Prod.ext_iff, eq_comm]
      · have hbeq : (key == entry.1) = false := beq_false_of_ne heq
        simp [hbeq, ih hrest, Prod.ext_iff, heq]

/-- Add a key at the end. Nothing happens when the key is there already. -/
def add (m : OrderedMap K V) (key : K) (value : V) : OrderedMap K V :=
  if h : key ∈ m.keys then m
  else
    { entries := m.entries ++ [(key, value)]
      nodup := by
        rw [List.map_append, List.map_singleton]
        apply List.Nodup.append m.nodup (List.nodup_singleton key)
        exact List.disjoint_singleton.mpr h }

theorem modify_fst (m : OrderedMap K V) (key : K) (change : V → V) :
    (m.entries.map fun entry =>
      if entry.1 = key then (entry.1, change entry.2) else entry).map Prod.fst =
        m.entries.map Prod.fst := by
  rw [List.map_map]
  apply List.map_congr_left
  intro entry _
  by_cases h : entry.1 = key <;> simp [h]

/-- Change the value of a key in place. -/
def modify (m : OrderedMap K V) (key : K) (change : V → V) : OrderedMap K V where
  entries := m.entries.map fun entry =>
    if entry.1 = key then (entry.1, change entry.2) else entry
  nodup := modify_fst m key change ▸ m.nodup

theorem find_add {m : OrderedMap K V} {key : K} (hnew : m.find key = none) (value : V) (other : K) :
    (m.add key value).find other = if other = key then some value else m.find other := by
  have hentries : (m.add key value).entries = m.entries ++ [(key, value)] := by
    rw [add, dif_neg (find_eq_none.mp hnew)]
  rw [find, hentries, List.lookup_append]
  by_cases h : other = key
  · subst h
    have hnone : m.entries.lookup other = none := hnew
    simp [hnone]
  · have hlast : List.lookup other [(key, value)] = none := by simp [h]
    rw [hlast, Option.or_none, if_neg h, find]

/-- The value that a key has after it was added if it was missing. -/
theorem find_add_eq (m : OrderedMap K V) (key : K) (value : V) (other : K) :
    (m.add key value).find other =
      if other = key then some ((m.find key).getD value) else m.find other := by
  cases hfind : m.find key with
  | none => rw [find_add hfind, Option.getD_none]
  | some old =>
      have hmem : key ∈ m.keys := by
        by_contra hnew
        rw [find_eq_none.mpr hnew] at hfind
        cases hfind
      rw [add, dif_pos hmem]
      split
      · next heq => rw [heq, hfind, Option.getD_some]
      · rfl

theorem find_modify (m : OrderedMap K V) (key : K) (change : V → V) (other : K) :
    (m.modify key change).find other =
      if other = key then (m.find key).map change else m.find other := by
  simp only [find, modify]
  induction m.entries with
  | nil => simp
  | cons entry rest ih =>
      rw [List.map_cons, List.lookup_cons, List.lookup_cons, List.lookup_cons, ih]
      by_cases hentry : entry.1 = key
      · subst hentry
        by_cases hother : other = entry.1
        · simp [hother]
        · have hbeq : (other == entry.1) = false := beq_false_of_ne hother
          simp [hother, hbeq]
      · have hbeq : (key == entry.1) = false := beq_false_of_ne (Ne.symm hentry)
        by_cases hother : other = key
        · simp [hother, hentry, hbeq]
        · simp [hother, hentry]

theorem mem_keys_add {m : OrderedMap K V} {key other : K} {value : V}
    (hmem : other ∈ (m.add key value).keys) : other = key ∨ other ∈ m.keys := by
  by_cases h : key ∈ m.keys
  · rw [add, dif_pos h] at hmem
    exact Or.inr hmem
  · rw [add, dif_neg h] at hmem
    simp only [keys, List.map_append, List.map_singleton, List.mem_append,
      List.mem_singleton] at hmem
    exact hmem.symm

theorem keys_add (m : OrderedMap K V) (key : K) (value : V) :
    (m.add key value).keys = if key ∈ m.keys then m.keys else m.keys ++ [key] := by
  by_cases h : key ∈ m.keys
  · rw [add, dif_pos h, if_pos h]
  · rw [add, dif_neg h, if_neg h, keys, List.map_append]
    rfl

theorem keys_modify (m : OrderedMap K V) (key : K) (change : V → V) :
    (m.modify key change).keys = m.keys :=
  modify_fst m key change

end OrderedMap
