import Mathlib.Data.List.Forall2
import Mathlib.Data.List.Perm.Subperm

/-!
Lists related element by element, loops that may fail, and counts over lists
without duplicates.
-/

namespace List

variable {α β : Type*} {R : α → β → Prop}

theorem Forall₂.exists_right {items : List α} {others : List β} (h : Forall₂ R items others)
    {item : α} (hmem : item ∈ items) : ∃ other ∈ others, R item other := by
  induction h with
  | nil => cases hmem
  | cons hhead _ ih =>
      rcases mem_cons.mp hmem with rfl | hrest
      · exact ⟨_, mem_cons_self, hhead⟩
      · obtain ⟨other, hother, hrel⟩ := ih hrest
        exact ⟨other, mem_cons_of_mem _ hother, hrel⟩

theorem Forall₂.exists_left {items : List α} {others : List β} (h : Forall₂ R items others)
    {other : β} (hmem : other ∈ others) : ∃ item ∈ items, R item other :=
  h.flip.exists_right hmem

theorem Forall₂.concat_left {items : List α} {last : α} {others : List β}
    (h : Forall₂ R (items ++ [last]) others) :
    ∃ init other, others = init ++ [other] ∧ Forall₂ R items init ∧ R last other := by
  induction items generalizing others with
  | nil =>
      obtain ⟨other, rest, hlast, hrest, rfl⟩ := forall₂_cons_left_iff.mp h
      obtain rfl := forall₂_nil_left_iff.mp hrest
      exact ⟨[], other, rfl, .nil, hlast⟩
  | cons item items ih =>
      obtain ⟨first, rest, hfirst, hrest, rfl⟩ := forall₂_cons_left_iff.mp h
      obtain ⟨init, other, rfl, hinit, hlast⟩ := ih hrest
      exact ⟨first :: init, other, rfl, .cons hfirst hinit, hlast⟩

theorem exists_forall₂ {items : List α} (h : ∀ item ∈ items, ∃ other, R item other) :
    ∃ others, Forall₂ R items others := by
  induction items with
  | nil => exact ⟨[], .nil⟩
  | cons item rest ih =>
      obtain ⟨other, hother⟩ := h item mem_cons_self
      obtain ⟨others, hothers⟩ := ih fun item hmem => h item (mem_cons_of_mem _ hmem)
      exact ⟨other :: others, .cons hother hothers⟩

theorem Forall₂.of_map_some {f : α → Option β} {items : List α} {others : List β}
    (h : items.map f = others.map some) :
    Forall₂ (fun item other => f item = some other) items others := by
  rwa [← forall₂_eq_eq_eq, forall₂_map_left_iff, forall₂_map_right_iff] at h

theorem Forall₂.mapM_eq {f : α → Option β} {items : List α} {others : List β}
    (h : Forall₂ (fun item other => f item = some other) items others) :
    items.mapM f = some others := by
  induction h with
  | nil => rfl
  | cons hhead _ ih => simp [mapM_cons, hhead, ih]

theorem getElem?_concat_eq_some {items : List α} {last item : α} {i : Nat} :
    (items ++ [last])[i]? = some item ↔
      items[i]? = some item ∨ i = items.length ∧ last = item := by
  rcases Nat.lt_trichotomy i items.length with hlt | rfl | hgt
  · have hne : i ≠ items.length := Nat.ne_of_lt hlt
    simp [getElem?_append_left hlt, hne]
  · simp
  · have hne : i ≠ items.length := Nat.ne_of_gt hgt
    have hnone : items[i]? = none := getElem?_eq_none (Nat.le_of_lt hgt)
    have hlast : (items ++ [last])[i]? = none := getElem?_eq_none (by simp; omega)
    simp [hnone, hlast, hne]

/-- One element of a list without duplicates begins to satisfy a predicate. -/
theorem Nodup.countP_insert [DecidableEq α] {items : List α} (hnodup : items.Nodup) {item : α}
    (hmem : item ∈ items) {p q : α → Bool} (hother : ∀ other, other ≠ item → q other = p other)
    (hp : p item = false) (hq : q item = true) : items.countP q = items.countP p + 1 := by
  have hperm := perm_cons_erase hmem
  have hrest : (items.erase item).countP q = (items.erase item).countP p := by
    apply countP_congr
    intro other hin
    rw [hother other ((Nodup.mem_erase_iff hnodup).mp hin).1]
  rw [hperm.countP_eq q, hperm.countP_eq p, countP_cons_of_pos hq,
    countP_cons_of_neg (by simp [hp]), hrest]

/-- Distinct positive numbers below a bound are fewer than the bound. -/
theorem Nodup.length_lt_of_range {items : List Nat} (hnodup : items.Nodup) {bound : Nat}
    (hbound : 0 < bound) (hrange : ∀ item ∈ items, 0 < item ∧ item < bound) :
    items.length < bound := by
  have hsub : items ⊆ List.range' 1 (bound - 1) := by
    intro item hmem
    obtain ⟨hpos, hlt⟩ := hrange item hmem
    rw [mem_range'_1]
    omega
  have hle := (subperm_of_subset hnodup hsub).length_le
  rw [length_range'] at hle
  omega

end List
