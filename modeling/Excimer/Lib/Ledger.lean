import Excimer.Lib.CountedHeap

/-!
Counted objects that hold no references themselves, such as strings. The ledger of a
heap lists the references that somebody holds and the objects that nobody holds and
nobody has freed. Counting down without a test for zero makes such an object of one
whose last reference it gives up.
-/

namespace CountedHeap.Heap

variable {ν : Type*}

def noRefs (_ : ν) : List ℕ := []

/-- Give up a reference to such an object. -/
def release (h : Heap ν) (id : ℕ) : Option (Heap ν) := (h.unref noRefs id).map Prod.fst

structure Ledger (h : Heap ν) (held leaked : List ℕ) : Prop where
  counted : ∀ id, h.count id = held.count id
  alive : ∀ id, (h.cell id).isSome ↔ id ∈ held ∨ id ∈ leaked
  apart : ∀ id ∈ leaked, id ∉ held
  nodup : leaked.Nodup

namespace Ledger

variable {h : Heap ν} {held leaked : List ℕ} {id : ℕ}

theorem empty : Ledger (Heap.empty : Heap ν) [] [] where
  counted _ := rfl
  alive _ := by simp [Heap.empty, cell]
  apart _ hmem := by cases hmem
  nodup := List.nodup_nil

theorem perm {other : List ℕ} (hl : Ledger h held leaked) (hperm : held.Perm other) :
    Ledger h other leaked where
  counted id := (hl.counted id).trans (hperm.count_eq id)
  alive id := by rw [hl.alive, hperm.mem_iff]
  apart id hid := fun hmem => hl.apart id hid (hperm.mem_iff.mpr hmem)
  nodup := hl.nodup

theorem cell_of_mem (hl : Ledger h held leaked) (hid : id ∈ held) :
    ∃ c, h.cell id = some c ∧ c.count = held.count id := by
  obtain ⟨c, hcell⟩ := Option.isSome_iff_exists.mp ((hl.alive id).mpr (Or.inl hid))
  exact ⟨c, hcell, (count_of_cell hcell).symm.trans (hl.counted id)⟩

theorem not_fresh (hl : Ledger h held leaked) : h.fresh ∉ held ∧ h.fresh ∉ leaked := by
  have hnone : ¬(h.cell h.fresh).isSome := by simp [cell_fresh]
  rw [hl.alive, not_or] at hnone
  exact hnone

theorem alloc (hl : Ledger h held leaked) (v : ν) :
    Ledger (h.alloc v) (h.fresh :: held) leaked where
  counted id := by
    have hold := hl.counted id
    rw [count] at hold
    rw [count, cell_alloc, List.count_cons]
    by_cases heq : id = h.fresh
    · subst heq
      simp [List.count_eq_zero_of_not_mem hl.not_fresh.1]
    · simp [heq, Ne.symm heq, hold]
  alive id := by
    rw [cell_alloc, List.mem_cons, or_assoc, ← hl.alive]
    by_cases heq : id = h.fresh <;> simp [heq]
  apart id hid := by
    rw [List.mem_cons, not_or]
    exact ⟨fun heq => hl.not_fresh.2 (heq ▸ hid), hl.apart id hid⟩
  nodup := hl.nodup

/-- A change of a count that goes with a change of the lists. -/
theorem put (hl : Ledger h held leaked) {c : Cell ν} (hcell : h.cell id = some c)
    {new : Option (Cell ν)} {held' leaked' : List ℕ}
    (hcount : new.elim 0 Cell.count = held'.count id)
    (halive : new.isSome ↔ id ∈ held' ∨ id ∈ leaked')
    (hother : ∀ other, other ≠ id → held'.count other = held.count other ∧
      (other ∈ leaked' ↔ other ∈ leaked))
    (hapart : id ∈ leaked' → id ∉ held') (hnodup : leaked'.Nodup) :
    Ledger (h.put id new) held' leaked' where
  counted other := by
    rw [count_put hcell]
    by_cases heq : other = id
    · rw [if_pos heq, heq, hcount]
    · rw [if_neg heq, hl.counted, (hother other heq).1]
  alive other := by
    rw [cell_put hcell]
    by_cases heq : other = id
    · rw [if_pos heq, heq, halive]
    · have hmem : other ∈ held' ↔ other ∈ held := by
        rw [← List.count_pos_iff, ← List.count_pos_iff, (hother other heq).1]
      rw [if_neg heq, hl.alive, hmem, (hother other heq).2]
  apart other hmem := by
    by_cases heq : other = id
    · exact heq ▸ hapart (heq ▸ hmem)
    · have hout := hl.apart other ((hother other heq).2.mp hmem)
      rw [← List.count_eq_zero] at hout ⊢
      rw [(hother other heq).1, hout]
  nodup := hnodup

theorem addRef (hl : Ledger h held leaked) (hid : id ∈ held) :
    ∃ next, h.addRef id = some next ∧ next.fresh = h.fresh ∧ Ledger next (id :: held) leaked := by
  obtain ⟨c, hcell, hcount⟩ := hl.cell_of_mem hid
  refine ⟨_, by rw [Heap.addRef, hcell, Option.map_some], fresh_put .., hl.put hcell ?_ ?_ ?_ ?_ ?_⟩
  · simp [hcount]
  · simp
  · intro other hne
    simp [Ne.symm hne]
  · intro hleaked
    exact absurd hid (hl.apart id hleaked)
  · exact hl.nodup

/-- Count down without a test for zero. -/
theorem delRef (hl : Ledger h (id :: held) leaked) :
    ∃ next, h.delRef id = some next ∧ next.fresh = h.fresh ∧
      Ledger next held (if id ∈ held then leaked else id :: leaked) := by
  have hid : id ∈ id :: held := List.mem_cons_self
  obtain ⟨c, hcell, hcount⟩ := hl.cell_of_mem hid
  have hleaked : id ∉ leaked := fun hmem => hl.apart id hmem hid
  refine ⟨_, by rw [Heap.delRef, hcell, Option.map_some], fresh_put .., hl.put hcell ?_ ?_ ?_ ?_ ?_⟩
  · simp [hcount]
  · by_cases hmem : id ∈ held <;> simp [hmem]
  · intro other hne
    by_cases hmem : id ∈ held <;> simp [hmem, hne, Ne.symm hne]
  · by_cases hmem : id ∈ held <;> simp [hmem, hleaked]
  · by_cases hmem : id ∈ held
    · simpa [hmem] using hl.nodup
    · simpa [hmem] using And.intro hleaked hl.nodup

/-- Count down and free the object at zero. -/
theorem release (hl : Ledger h (id :: held) leaked) :
    ∃ next, h.release id = some next ∧ next.fresh = h.fresh ∧ Ledger next held leaked := by
  have hid : id ∈ id :: held := List.mem_cons_self
  obtain ⟨c, hcell, hcount⟩ := hl.cell_of_mem hid
  have hleaked : id ∉ leaked := fun hmem => hl.apart id hmem hid
  rw [List.count_cons_self] at hcount
  have hother : ∀ other, other ≠ id → held.count other = (id :: held).count other ∧
      (other ∈ leaked ↔ other ∈ leaked) := by
    intro other hne
    simp [Ne.symm hne]
  by_cases hlast : c.count ≤ 1
  · have hout : id ∉ held := List.count_eq_zero.mp (by omega)
    refine ⟨h.put id none, ?_, fresh_put .., hl.put hcell ?_ ?_ hother ?_ hl.nodup⟩
    · simp [Heap.release, unref, hcell, hlast]
    · simp [List.count_eq_zero_of_not_mem hout]
    · simp [hout, hleaked]
    · exact fun hmem => absurd hmem hleaked
  · have hin : id ∈ held := List.count_pos_iff.mp (by omega)
    refine ⟨h.put id (some { c with count := c.count - 1 }), ?_, fresh_put ..,
      hl.put hcell ?_ ?_ hother ?_ hl.nodup⟩
    · simp [Heap.release, unref, hcell, hlast]
    · simp [hcount]
    · simp [hin]
    · exact fun hmem => absurd hmem hleaked

/-- Give up the references of a table to its keys. -/
theorem releaseEach {keys : List ℕ} (hl : Ledger h (keys ++ held) leaked) :
    ∃ next, keys.foldlM (fun h id => Heap.release h id) h = some next ∧
      next.fresh = h.fresh ∧ Ledger next held leaked := by
  induction keys generalizing h with
  | nil => exact ⟨h, rfl, rfl, hl⟩
  | cons id rest ih =>
      obtain ⟨mid, hmid, hfresh, hledger⟩ := hl.release
      obtain ⟨next, hnext, hfresh', hfinal⟩ := ih hledger
      refine ⟨next, ?_, hfresh'.trans hfresh, hfinal⟩
      rw [List.foldlM_cons, hmid]
      exact hnext

end Ledger

end CountedHeap.Heap
