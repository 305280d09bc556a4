import Mathlib.Algebra.Order.Ring.Int
import Mathlib.Data.List.Count
import Mathlib.Logic.Relation

/-!
A heap of counted objects. An object holds references to others, and the rest of
the program holds some of its own. Whoever gives up the last reference to an
object frees it, and has the references of the object to give up after that. A
heap is sound when every count is the number of all references to the object.
In a sound heap a reference can be given up, and no object is freed that somebody
can still use.
-/

namespace CountedHeap

structure Cell (ν : Type*) where
  count : ℕ
  value : ν
  deriving DecidableEq, Repr

/-- The objects by their handles. The cell of a freed object stays empty. -/
structure Heap (ν : Type*) where
  cells : List (Option (Cell ν))
  deriving DecidableEq, Repr

namespace Heap

variable {ν : Type*} (refs : ν → List ℕ)

def empty : Heap ν := ⟨[]⟩

def cell (h : Heap ν) (id : ℕ) : Option (Cell ν) := (h.cells[id]?).join

def value (h : Heap ν) (id : ℕ) : Option ν := (h.cell id).map Cell.value

def put (h : Heap ν) (id : ℕ) (cell : Option (Cell ν)) : Heap ν := ⟨h.cells.set id cell⟩

/-- The handle of the next new object. -/
def fresh (h : Heap ν) : ℕ := h.cells.length

/-- A new object, with one reference to it. -/
def alloc (h : Heap ν) (v : ν) : Heap ν := ⟨h.cells ++ [some ⟨1, v⟩]⟩

/-- Count one more reference. -/
def addRef (h : Heap ν) (id : ℕ) : Option (Heap ν) :=
  (h.cell id).map fun c => h.put id (some { c with count := c.count + 1 })

/-- Count one reference less, whatever is left. -/
def delRef (h : Heap ν) (id : ℕ) : Option (Heap ν) :=
  (h.cell id).map fun c => h.put id (some { c with count := c.count - 1 })

/-- Change an object and leave the counts alone. -/
def write (h : Heap ν) (id : ℕ) (v : ν) : Option (Heap ν) :=
  (h.cell id).map fun c => h.put id (some { c with value := v })

/-- Give up a reference, with the references that are left to give up when the
object is freed by that. There is no result when its memory is already free. -/
def unref (h : Heap ν) (id : ℕ) : Option (Heap ν × List ℕ) :=
  (h.cell id).map fun c =>
    if c.count ≤ 1 then (h.put id none, refs c.value)
    else (h.put id (some { c with count := c.count - 1 }), [])

/-- The sum of all counts. -/
def total (h : Heap ν) : ℕ := (h.cells.map fun c => c.elim 0 Cell.count).sum

/-- The references that the objects hold. -/
def held (h : Heap ν) : List ℕ := h.cells.flatMap fun c => c.elim [] fun c => refs c.value

def count (h : Heap ν) (id : ℕ) : ℕ := (h.cell id).elim 0 Cell.count

section Cells

variable {h : Heap ν} {id : ℕ} {c : Cell ν}

theorem value_eq_some {v : ν} : h.value id = some v ↔ ∃ c, h.cell id = some c ∧ c.value = v :=
  Option.map_eq_some_iff

theorem getElem?_of_cell (hcell : h.cell id = some c) : h.cells[id]? = some (some c) :=
  Option.join_eq_some_iff.mp hcell

theorem cell_put (hcell : h.cell id = some c) (new : Option (Cell ν)) (other : ℕ) :
    (h.put id new).cell other = if other = id then new else h.cell other := by
  obtain ⟨hlt, -⟩ := List.getElem?_eq_some_iff.mp (getElem?_of_cell hcell)
  by_cases heq : other = id
  · subst heq
    simp [put, cell, hlt]
  · simp [put, cell, heq, Ne.symm heq]

theorem value_put (hcell : h.cell id = some c) (new : Option (Cell ν)) (other : ℕ) :
    (h.put id new).value other = if other = id then new.map Cell.value else h.value other := by
  rw [value, cell_put hcell]
  split <;> rfl

theorem lt_fresh (hcell : h.cell id = some c) : id < h.fresh :=
  (List.getElem?_eq_some_iff.mp (getElem?_of_cell hcell)).1

@[simp] theorem fresh_put (h : Heap ν) (id : ℕ) (new : Option (Cell ν)) :
    (h.put id new).fresh = h.fresh := by
  simp [put, fresh]

@[simp] theorem fresh_alloc (h : Heap ν) (v : ν) : (h.alloc v).fresh = h.fresh + 1 := by
  simp [alloc, fresh]

theorem cell_alloc (h : Heap ν) (v : ν) (other : ℕ) :
    (h.alloc v).cell other = if other = h.fresh then some ⟨1, v⟩ else h.cell other := by
  rcases Nat.lt_trichotomy other h.cells.length with hlt | heq | hgt
  · have hne : other ≠ h.fresh := Nat.ne_of_lt hlt
    simp [alloc, cell, List.getElem?_append_left hlt, hne]
  · subst heq
    simp [alloc, cell, fresh]
  · have hne : other ≠ h.fresh := Nat.ne_of_gt hgt
    have hout : (h.cells ++ [some (Cell.mk 1 v)]).length ≤ other := by
      rw [List.length_append, List.length_singleton]
      exact hgt
    rw [if_neg hne, cell, alloc, List.getElem?_eq_none hout, cell,
      List.getElem?_eq_none (Nat.le_of_lt hgt)]

theorem cell_fresh (h : Heap ν) : h.cell h.fresh = none := by
  simp [cell, fresh]

theorem value_alloc (h : Heap ν) (v : ν) (other : ℕ) :
    (h.alloc v).value other = if other = h.fresh then some v else h.value other := by
  rw [value, cell_alloc]
  split <;> rfl

theorem put_put (h : Heap ν) (id : ℕ) (first second : Option (Cell ν)) :
    (h.put id first).put id second = h.put id second := by
  simp [put]

theorem put_comm {other : ℕ} (hne : id ≠ other) (first second : Option (Cell ν)) :
    (h.put id first).put other second = (h.put other second).put id first := by
  simp [put, List.set_comm _ _ hne]

theorem put_self (hcell : h.cell id = some c) : h.put id (some c) = h := by
  obtain ⟨hlt, hget⟩ := List.getElem?_eq_some_iff.mp (getElem?_of_cell hcell)
  rw [put, ← hget, List.set_getElem_self]

end Cells

section Sums

variable {h : Heap ν} {id : ℕ} {c : Cell ν}

/-- A sum over the cells after a change of one of them. -/
theorem sum_put {α : Type*} (f : α → ℕ) {cells : List α} {old : α} (hold : cells[id]? = some old)
    (new : α) : ((cells.set id new).map f).sum + f old = (cells.map f).sum + f new := by
  induction cells generalizing id with
  | nil => simp at hold
  | cons first rest ih =>
      cases id with
      | zero =>
          obtain rfl : first = old := by simpa using hold
          simp only [List.set_cons_zero, List.map_cons, List.sum_cons]
          omega
      | succ id =>
          have hrest := ih (by simpa using hold)
          simp only [List.set_cons_succ, List.map_cons, List.sum_cons]
          omega

theorem count_held (h : Heap ν) (r : ℕ) :
    (h.held refs).count r =
      (h.cells.map fun c => (c.elim [] fun c => refs c.value).count r).sum := by
  rw [held, List.count_flatMap]
  rfl

theorem count_held_put (hcell : h.cell id = some c) (new : Option (Cell ν)) (r : ℕ) :
    ((h.put id new).held refs).count r + (refs c.value).count r =
      (h.held refs).count r + (new.elim [] fun c => refs c.value).count r := by
  rw [count_held, count_held]
  exact sum_put _ (getElem?_of_cell hcell) new

theorem count_put (hcell : h.cell id = some c) (new : Option (Cell ν)) (other : ℕ) :
    (h.put id new).count other = if other = id then new.elim 0 Cell.count else h.count other := by
  rw [count, cell_put hcell]
  split <;> rfl

theorem count_of_cell (hcell : h.cell id = some c) : h.count id = c.count := by
  rw [count, hcell]
  rfl

theorem mem_held {r : ℕ} : r ∈ h.held refs ↔ ∃ id v, h.value id = some v ∧ r ∈ refs v := by
  simp only [held, List.mem_flatMap]
  constructor
  · rintro ⟨c, hmem, hr⟩
    cases c with
    | none => simp at hr
    | some c =>
        obtain ⟨id, hget⟩ := List.mem_iff_getElem?.mp hmem
        exact ⟨id, c.value, value_eq_some.mpr ⟨c, Option.join_eq_some_iff.mpr hget, rfl⟩, hr⟩
  · rintro ⟨id, v, hvalue, hr⟩
    obtain ⟨c, hcell, rfl⟩ := value_eq_some.mp hvalue
    exact ⟨some c, List.mem_of_getElem? (getElem?_of_cell hcell), hr⟩

end Sums

/-- Every count is the number of the references to the object, those held outside
of the heap included, and an object without references is freed. -/
structure Sound (h : Heap ν) (ext : List ℕ) : Prop where
  counted : ∀ id, h.count id = ext.count id + (h.held refs).count id
  positive : ∀ id c, h.cell id = some c → 0 < c.count

/-- Objects are freed, and those that are left have not changed. -/
structure Shrinks (h next : Heap ν) : Prop where
  fresh : next.fresh = h.fresh
  value : ∀ id v, next.value id = some v → h.value id = some v

theorem Shrinks.refl (h : Heap ν) : h.Shrinks h := ⟨rfl, fun _ _ hvalue => hvalue⟩

theorem Shrinks.trans {h mid next : Heap ν} (hfirst : h.Shrinks mid) (hsecond : mid.Shrinks next) :
    h.Shrinks next where
  fresh := hsecond.fresh.trans hfirst.fresh
  value id v hvalue := hfirst.value id v (hsecond.value id v hvalue)

theorem shrinks_put {h : Heap ν} {id : ℕ} {c : Cell ν} (hcell : h.cell id = some c)
    {new : Option (Cell ν)} (hnew : ∀ cell ∈ new, cell.value = c.value) :
    h.Shrinks (h.put id new) where
  fresh := fresh_put h id new
  value other v hvalue := by
    rw [value_put hcell] at hvalue
    split at hvalue
    case isTrue heq =>
      obtain ⟨cell, hmem, rfl⟩ := Option.map_eq_some_iff.mp hvalue
      exact value_eq_some.mpr ⟨c, heq ▸ hcell, (hnew cell hmem).symm⟩
    case isFalse => exact hvalue

theorem unref_shrinks {refs : ν → List ℕ} {h next : Heap ν} {id : ℕ} {rest : List ℕ}
    (hunref : h.unref refs id = some (next, rest)) : h.Shrinks next := by
  obtain ⟨c, hcell, heq⟩ := Option.map_eq_some_iff.mp hunref
  split at heq
  case isTrue =>
    cases heq
    exact shrinks_put hcell (by simp)
  case isFalse =>
    cases heq
    exact shrinks_put hcell (by simp)

theorem unref_value {refs : ν → List ℕ} {h next : Heap ν} {id other : ℕ} {rest : List ℕ}
    (hunref : h.unref refs id = some (next, rest)) (hne : other ≠ id) :
    next.value other = h.value other := by
  obtain ⟨c, hcell, heq⟩ := Option.map_eq_some_iff.mp hunref
  split at heq
  case isTrue =>
    cases heq
    rw [value_put hcell, if_neg hne]
  case isFalse =>
    cases heq
    rw [value_put hcell, if_neg hne]

theorem unref_rest {refs : ν → List ℕ} {h next : Heap ν} {id : ℕ} {rest : List ℕ}
    (hunref : h.unref refs id = some (next, rest)) (halive : next.value id ≠ none) :
    rest = [] := by
  obtain ⟨c, hcell, heq⟩ := Option.map_eq_some_iff.mp hunref
  split at heq
  case isTrue =>
    cases heq
    rw [value_put hcell, if_pos rfl] at halive
    exact absurd rfl halive
  case isFalse =>
    cases heq
    rfl

/-- An object can be changed before a reference to another one is given up as well
as after that. -/
theorem unref_write {refs : ν → List ℕ} {h freed mid : Heap ν} {id r : ℕ} {v : ν} {rest : List ℕ}
    (hunref : h.unref refs r = some (freed, rest)) (hwrite : h.write id v = some mid)
    (hne : id ≠ r) :
    ∃ next, freed.write id v = some next ∧ mid.unref refs r = some (next, rest) := by
  obtain ⟨c, hcell, rfl⟩ := Option.map_eq_some_iff.mp hwrite
  obtain ⟨d, hother, heq⟩ := Option.map_eq_some_iff.mp hunref
  have hstill := cell_put hcell (some { c with value := v }) r
  rw [if_neg (Ne.symm hne), hother] at hstill
  have hleft (new : Option (Cell ν)) : (h.put r new).cell id = some c := by
    rw [cell_put hother, if_neg hne, hcell]
  split at heq
  case isTrue hcount =>
    cases heq
    refine ⟨_, by rw [write, hleft, Option.map_some], ?_⟩
    rw [unref, hstill, Option.map_some, if_pos hcount, put_comm hne]
  case isFalse hcount =>
    cases heq
    refine ⟨_, by rw [write, hleft, Option.map_some], ?_⟩
    rw [unref, hstill, Option.map_some, if_neg hcount, put_comm hne]

theorem write_write {h mid : Heap ν} {id : ℕ} {v : ν} (hwrite : h.write id v = some mid) (w : ν) :
    mid.write id w = h.write id w := by
  obtain ⟨c, hcell, rfl⟩ := Option.map_eq_some_iff.mp hwrite
  rw [write, cell_put hcell, if_pos rfl, write, hcell, Option.map_some, Option.map_some, put_put]

/-- A reference that is counted and given up at once. -/
theorem delRef_addRef {h next : Heap ν} {id : ℕ} (hadd : h.addRef id = some next) :
    next.delRef id = some h := by
  obtain ⟨c, hcell, rfl⟩ := Option.map_eq_some_iff.mp hadd
  simp [delRef, cell_put hcell, put_put, put_self hcell]

theorem value_write {h next : Heap ν} {id : ℕ} {v : ν} (hwrite : h.write id v = some next)
    (other : ℕ) : next.value other = if other = id then some v else h.value other := by
  obtain ⟨c, hcell, rfl⟩ := Option.map_eq_some_iff.mp hwrite
  exact value_put hcell _ other

namespace Sound

variable {refs : ν → List ℕ} {h : Heap ν} {ext : List ℕ} {id : ℕ} {c : Cell ν}

theorem empty : Sound refs (Heap.empty : Heap ν) [] where
  counted _ := by simp [Heap.empty, count, cell, held]
  positive _ _ hcell := by simp [Heap.empty, cell] at hcell

theorem perm {other : List ℕ} (hs : Sound refs h ext) (hperm : ext.Perm other) :
    Sound refs h other where
  counted id := by rw [hs.counted, hperm.count_eq]
  positive := hs.positive

/-- A reference leads to an object. -/
theorem live (hs : Sound refs h ext) (hid : id ∈ ext) : ∃ c, h.cell id = some c := by
  have hcount := hs.counted id
  have hpos := List.count_pos_iff.mpr hid
  cases hcell : h.cell id with
  | some c => exact ⟨c, rfl⟩
  | none =>
      simp only [count, hcell, Option.elim_none] at hcount
      omega

theorem live_held (hs : Sound refs h ext) {v : ν} {r : ℕ} (hvalue : h.value id = some v)
    (hr : r ∈ refs v) : ∃ c, h.cell r = some c := by
  have hcount := hs.counted r
  have hpos := List.count_pos_iff.mpr ((mem_held refs).mpr ⟨id, v, hvalue, hr⟩)
  cases hcell : h.cell r with
  | some c => exact ⟨c, rfl⟩
  | none =>
      simp only [count, hcell, Option.elim_none] at hcount
      omega

/-- A change of one object keeps the heap sound when the references outside of the
heap change with it. -/
theorem put (hs : Sound refs h ext) (hcell : h.cell id = some c) {new : Option (Cell ν)}
    {other : List ℕ} (hpos : ∀ cell ∈ new, 0 < cell.count)
    (hcount : ∀ r, other.count r + (new.elim [] fun c => refs c.value).count r +
      (if r = id then c.count else 0) =
      ext.count r + (refs c.value).count r + if r = id then new.elim 0 Cell.count else 0) :
    Sound refs (h.put id new) other where
  counted r := by
    have hold := hs.counted r
    have hheld := count_held_put refs hcell new r
    have hr := hcount r
    rw [count_put hcell]
    split
    case isTrue heq =>
      subst heq
      rw [count_of_cell hcell] at hold
      simp only [if_true] at hr
      omega
    case isFalse hne =>
      simp only [if_neg hne] at hr
      omega
  positive other cell hother := by
    rw [cell_put hcell] at hother
    split at hother
    case isTrue => exact hpos cell hother
    case isFalse => exact hs.positive other cell hother

theorem addRef (hs : Sound refs h ext) (hcell : h.cell id = some c) :
    Sound refs (h.put id (some { c with count := c.count + 1 })) (id :: ext) := by
  refine hs.put hcell (by simp) fun r => ?_
  simp only [List.count_cons, beq_iff_eq, Option.elim_some, eq_comm (a := id)]
  split <;> omega

theorem delRef (hs : Sound refs h (id :: ext)) (hcell : h.cell id = some c) (hcount : 1 < c.count) :
    Sound refs (h.put id (some { c with count := c.count - 1 })) ext := by
  refine hs.put hcell (by simpa using Nat.sub_pos_of_lt hcount) fun r => ?_
  simp only [List.count_cons, beq_iff_eq, Option.elim_some, eq_comm (a := id)]
  split <;> omega

/-- The references of an object that is freed are held by whoever frees it. -/
theorem free (hs : Sound refs h (id :: ext)) (hcell : h.cell id = some c) (hcount : c.count ≤ 1) :
    Sound refs (h.put id none) (refs c.value ++ ext) := by
  have hone : c.count = 1 := Nat.le_antisymm hcount (hs.positive id c hcell)
  refine hs.put hcell (by simp) fun r => ?_
  simp only [List.count_cons, List.count_append, beq_iff_eq, Option.elim_none, List.count_nil, hone,
    eq_comm (a := id)]
  split <;> omega

/-- An object that is changed takes references and gives back others. -/
theorem write (hs : Sound refs h ext) (hcell : h.cell id = some c) {v : ν} {other : List ℕ}
    (hrefs : (refs v ++ other).Perm (refs c.value ++ ext)) :
    Sound refs (h.put id (some { c with value := v })) other := by
  refine hs.put hcell (by simpa using hs.positive id c hcell) fun r => ?_
  have hr := hrefs.count_eq r
  simp only [List.count_append] at hr
  simp only [Option.elim_some]
  omega

/-- A new object takes references. -/
theorem alloc {v : ν} (hs : Sound refs h (refs v ++ ext)) :
    Sound refs (h.alloc v) (h.fresh :: ext) where
  counted r := by
    have hold := hs.counted r
    have hheld : ((h.alloc v).held refs).count r = (h.held refs).count r + (refs v).count r := by
      simp [Heap.alloc, held]
    rw [List.count_append] at hold
    rw [count, cell_alloc, hheld, List.count_cons]
    simp only [beq_iff_eq]
    split
    case isTrue heq =>
      subst heq
      simp only [count, cell_fresh, Option.elim_none] at hold
      simp only [Option.elim_some, if_true]
      omega
    case isFalse hne =>
      rw [if_neg (Ne.symm hne)]
      rw [count] at hold
      omega
  positive other cell hother := by
    rw [cell_alloc] at hother
    split at hother
    case isTrue => simp [← Option.some.inj hother]
    case isFalse => exact hs.positive other cell hother

/-- A reference that is held can be given up. -/
theorem unref (hs : Sound refs h (id :: ext)) :
    ∃ next rest, h.unref refs id = some (next, rest) ∧ Sound refs next (rest ++ ext) := by
  obtain ⟨c, hcell⟩ := hs.live (List.mem_cons_self ..)
  by_cases hcount : c.count ≤ 1
  · exact ⟨h.put id none, refs c.value, by simp [Heap.unref, hcell, hcount],
      hs.free hcell hcount⟩
  · exact ⟨h.put id (some { c with count := c.count - 1 }), [],
      by simp [Heap.unref, hcell, hcount], hs.delRef hcell (Nat.lt_of_not_le hcount)⟩

end Sound

/-- What every object and the objects that it refers to have to do with each
other. -/
def Linked (edge : ℕ → ν → ℕ → ν → Prop) (h : Heap ν) : Prop :=
  ∀ id v, h.value id = some v → ∀ r ∈ refs v, ∃ w, h.value r = some w ∧ edge id v r w

namespace Linked

variable {refs : ν → List ℕ} {edge : ℕ → ν → ℕ → ν → Prop} {h next : Heap ν} {id : ℕ} {c : Cell ν}

theorem congr (hl : Linked refs edge h) (hsame : ∀ id, next.value id = h.value id) :
    Linked refs edge next := by
  intro id v hvalue r hr
  rw [hsame] at hvalue
  obtain ⟨w, hw, hedge⟩ := hl id v hvalue r hr
  exact ⟨w, (hsame r).trans hw, hedge⟩

theorem shrink {ext : List ℕ} (hl : Linked refs edge h) (hshrinks : h.Shrinks next)
    (hs : Sound refs next ext) : Linked refs edge next := by
  intro id v hvalue r hr
  obtain ⟨w, hw, hedge⟩ := hl id v (hshrinks.value id v hvalue) r hr
  obtain ⟨c, hcell⟩ := hs.live_held hvalue hr
  have hleft : next.value r = some c.value := value_eq_some.mpr ⟨c, hcell, rfl⟩
  have hsame : c.value = w := Option.some.inj ((hshrinks.value r _ hleft).symm.trans hw)
  exact ⟨w, hsame ▸ hleft, hedge⟩

theorem alloc {v : ν} (hl : Linked refs edge h)
    (hout : ∀ r ∈ refs v, ∃ w, h.value r = some w ∧ edge h.fresh v r w) :
    Linked refs edge (h.alloc v) := by
  have hkept : ∀ r w, h.value r = some w → (h.alloc v).value r = some w := by
    intro r w hw
    obtain ⟨c, hcell, -⟩ := value_eq_some.mp hw
    rw [value_alloc, if_neg (Nat.ne_of_lt (lt_fresh hcell)), hw]
  intro id u hvalue r hr
  rw [value_alloc] at hvalue
  split at hvalue
  case isTrue heq =>
    obtain rfl := Option.some.inj hvalue
    obtain ⟨w, hw, hedge⟩ := hout r hr
    exact ⟨w, hkept r w hw, heq ▸ hedge⟩
  case isFalse =>
    obtain ⟨w, hw, hedge⟩ := hl id u hvalue r hr
    exact ⟨w, hkept r w hw, hedge⟩

/-- A change of an object has to suit the objects that it refers to and the objects
that refer to it. -/
theorem write {v : ν} (hl : Linked refs edge h) (hcell : h.cell id = some c) (hself : id ∉ refs v)
    (hout : ∀ r ∈ refs v, ∃ w, h.value r = some w ∧ edge id v r w)
    (hin : ∀ a u, h.value a = some u → id ∈ refs u → edge a u id c.value → edge a u id v) :
    Linked refs edge (h.put id (some { c with value := v })) := by
  have hvalue : ∀ other, (h.put id (some { c with value := v })).value other =
      if other = id then some v else h.value other := value_put hcell _
  intro a u ha r hr
  rw [hvalue] at ha
  split at ha
  case isTrue heq =>
    obtain rfl := Option.some.inj ha
    obtain ⟨w, hw, hedge⟩ := hout r hr
    have hne : r ≠ id := fun hsame => hself (hsame ▸ hr)
    exact ⟨w, by rw [hvalue, if_neg hne, hw], heq ▸ hedge⟩
  case isFalse =>
    obtain ⟨w, hw, hedge⟩ := hl a u ha r hr
    by_cases heq : r = id
    · subst heq
      have hold : w = c.value :=
        Option.some.inj (hw.symm.trans (value_eq_some.mpr ⟨c, hcell, rfl⟩))
      exact ⟨v, by rw [hvalue, if_pos rfl], hin a u ha hr (hold ▸ hedge)⟩
    · exact ⟨w, by rw [hvalue, if_neg heq, hw], hedge⟩

end Linked

section Isolation

def Points (h : Heap ν) (a b : ℕ) : Prop := ∃ v, h.value a = some v ∧ b ∈ refs v

/-- Objects that only objects among them refer to. -/
structure Isolated (h : Heap ν) (ext : List ℕ) (group : ℕ → Prop) : Prop where
  outside : ∀ r ∈ ext, ¬group r
  closed : ∀ a b, h.Points refs a b → group b → group a
  old : ∀ id, group id → id < h.fresh

/-- An object that no isolated group contains. -/
def Known (h : Heap ν) (ext : List ℕ) (id : ℕ) : Prop :=
  ∀ group, Isolated refs h ext group → ¬group id

/-- Isolated objects stay as they are. -/
structure Spared (h : Heap ν) (ext : List ℕ) (next : Heap ν) (other : List ℕ) : Prop where
  keep : ∀ group, Isolated refs h ext group → Isolated refs next other group ∧
    ∀ id, group id → next.cell id = h.cell id

variable {refs : ν → List ℕ} {h mid next : Heap ν} {ext other : List ℕ}
  {id a b : ℕ} {c : Cell ν} {group : ℕ → Prop}

theorem Points.lt_fresh (hpoints : h.Points refs a b) : a < h.fresh := by
  obtain ⟨v, hvalue, -⟩ := hpoints
  obtain ⟨c, hcell, -⟩ := value_eq_some.mp hvalue
  exact Heap.lt_fresh hcell

theorem Known.of_mem (hid : id ∈ ext) : h.Known refs ext id :=
  fun _ hgroup => hgroup.outside id hid

theorem Known.points (ha : h.Known refs ext a) (hpoints : h.Points refs a b) :
    h.Known refs ext b :=
  fun group hgroup hin => ha group hgroup (hgroup.closed a b hpoints hin)

theorem Spared.trans {last : List ℕ} (hfirst : Spared refs h ext mid other)
    (hsecond : Spared refs mid other next last) : Spared refs h ext next last where
  keep group hgroup := by
    obtain ⟨hmid, hsame⟩ := hfirst.keep group hgroup
    obtain ⟨hnext, hsame'⟩ := hsecond.keep group hmid
    exact ⟨hnext, fun id hid => (hsame' id hid).trans (hsame id hid)⟩

theorem Spared.of_subset (hsubset : other ⊆ ext) : Spared refs h ext h other where
  keep _ hgroup := ⟨⟨fun r hr => hgroup.outside r (hsubset hr), hgroup.closed, hgroup.old⟩,
    fun _ _ => rfl⟩

/-- A change of an object that somebody refers to, and that takes over references
only. -/
theorem Spared.put (hcell : h.cell id = some c) {new : Option (Cell ν)}
    (hid : h.Known refs ext id) (hnew : ∀ cell ∈ new, refs cell.value ⊆ refs c.value ++ ext)
    (hother : other ⊆ id :: (refs c.value ++ ext)) : Spared refs h ext (h.put id new) other where
  keep group hgroup := by
    have hnot : ¬group id := hid group hgroup
    have hrefs : ∀ r ∈ refs c.value ++ ext, ¬group r := by
      intro r hr hin
      rcases List.mem_append.mp hr with hheld | hext
      · exact hnot (hgroup.closed id r ⟨c.value, value_eq_some.mpr ⟨c, hcell, rfl⟩, hheld⟩ hin)
      · exact hgroup.outside r hext hin
    refine ⟨⟨?_, ?_, ?_⟩, ?_⟩
    · intro r hr
      rcases List.mem_cons.mp (hother hr) with rfl | hmem
      · exact hnot
      · exact hrefs r hmem
    · rintro a b ⟨v, hvalue, hb⟩ hin
      rw [value_put hcell] at hvalue
      split at hvalue
      case isTrue =>
        obtain ⟨cell, hmem, rfl⟩ := Option.map_eq_some_iff.mp hvalue
        exact absurd hin (hrefs b (hnew cell hmem hb))
      case isFalse => exact hgroup.closed a b ⟨v, hvalue, hb⟩ hin
    · intro x hx
      rw [fresh_put]
      exact hgroup.old x hx
    · intro x hx
      have hne : x ≠ id := fun heq => hnot (heq ▸ hx)
      rw [cell_put hcell, if_neg hne]

theorem Spared.alloc {v : ν} : Spared refs h (refs v ++ ext) (h.alloc v) (h.fresh :: ext) where
  keep group hgroup := by
    have hfresh : ¬group h.fresh := fun hin => Nat.lt_irrefl _ (hgroup.old _ hin)
    refine ⟨⟨?_, ?_, ?_⟩, ?_⟩
    · intro r hr
      rcases List.mem_cons.mp hr with rfl | hext
      · exact hfresh
      · exact hgroup.outside r (List.mem_append_right _ hext)
    · rintro a b ⟨u, hvalue, hb⟩ hin
      rw [value_alloc] at hvalue
      split at hvalue
      case isTrue =>
        obtain rfl := Option.some.inj hvalue
        exact absurd hin (hgroup.outside b (List.mem_append_left _ hb))
      case isFalse => exact hgroup.closed a b ⟨u, hvalue, hb⟩ hin
    · intro x hx
      rw [fresh_alloc]
      exact Nat.lt_succ_of_lt (hgroup.old x hx)
    · intro x hx
      have hne : x ≠ h.fresh := fun heq => hfresh (heq ▸ hx)
      rw [cell_alloc, if_neg hne]

theorem Spared.unref {rest : List ℕ} (hunref : h.unref refs id = some (next, rest)) :
    Spared refs h (id :: ext) next (rest ++ ext) := by
  obtain ⟨c, hcell, heq⟩ := Option.map_eq_some_iff.mp hunref
  have hid : h.Known refs (id :: ext) id := .of_mem (List.mem_cons_self ..)
  split at heq
  case isTrue =>
    cases heq
    refine .put hcell hid (by simp) ?_
    intro r hr
    rcases List.mem_append.mp hr with hheld | hext
    · exact List.mem_cons_of_mem _ (List.mem_append_left _ hheld)
    · exact List.mem_cons_of_mem _ (List.mem_append_right _ (List.mem_cons_of_mem _ hext))
  case isFalse =>
    cases heq
    refine .put hcell hid (by rintro cell ⟨⟩; exact List.subset_append_left _ _) ?_
    intro r hr
    exact List.mem_cons_of_mem _ (List.mem_append_right _ (List.mem_cons_of_mem _ hr))

end Isolation

section Garbage

variable {refs : ν → List ℕ} {h : Heap ν} {ext : List ℕ} {a b id : ℕ}

/-- The references outside of the heap lead to an object. -/
def Reached (refs : ν → List ℕ) (h : Heap ν) (ext : List ℕ) (id : ℕ) : Prop :=
  ∃ root ∈ ext, Relation.ReflTransGen (h.Points refs) root id

/-- An object that is out of reach has not been freed because another one holds
it. -/
theorem Sound.unreached_held {c : Cell ν} (hs : Sound refs h ext) (hcell : h.cell id = some c)
    (hid : ¬h.Reached refs ext id) : ∃ a, h.Points refs a id ∧ ¬h.Reached refs ext a := by
  have hout : id ∉ ext := fun hmem => hid ⟨id, hmem, .refl⟩
  have hcount := hs.counted id
  have hpos := hs.positive id c hcell
  rw [count_of_cell hcell, List.count_eq_zero_of_not_mem hout] at hcount
  have hheld : id ∈ h.held refs := List.count_pos_iff.mp (by omega)
  obtain ⟨a, v, hvalue, hmem⟩ := (mem_held refs).mp hheld
  refine ⟨a, ⟨v, hvalue, hmem⟩, fun ⟨root, hroot, hpath⟩ => hid ?_⟩
  exact ⟨root, hroot, hpath.tail ⟨v, hvalue, hmem⟩⟩

/-- The references of a single holder. -/
theorem count_held_eq {v : ν} (hvalue : h.value a = some v)
    (honly : ∀ b, h.Points refs b id → b = a) : (h.held refs).count id = (refs v).count id := by
  obtain ⟨c, hcell, rfl⟩ := value_eq_some.mp hvalue
  have hput := count_held_put refs hcell none id
  have hnone : ((h.put a none).held refs).count id = 0 := by
    refine List.count_eq_zero_of_not_mem fun hmem => ?_
    obtain ⟨b, u, hb, hu⟩ := (mem_held refs).mp hmem
    rw [value_put hcell] at hb
    split at hb
    case isTrue => cases hb
    case isFalse hne => exact hne (honly b ⟨u, hb, hu⟩)
  simp only [Option.elim_none, List.count_nil] at hput
  omega

/-- A single reference has a single holder. -/
theorem holder_unique (hcount : (h.held refs).count id ≤ 1) (ha : h.Points refs a id)
    (hb : h.Points refs b id) : b = a := by
  obtain ⟨v, hvalue, hv⟩ := ha
  obtain ⟨c, hcell, rfl⟩ := value_eq_some.mp hvalue
  by_contra hne
  have hput := count_held_put refs hcell none id
  have hpos := List.count_pos_iff.mpr hv
  obtain ⟨u, hb, hu⟩ := hb
  have hother : id ∈ (h.put a none).held refs := by
    refine (mem_held refs).mpr ⟨b, u, ?_, hu⟩
    rw [value_put hcell, if_neg hne, hb]
  have hpos' := List.count_pos_iff.mpr hother
  simp only [Option.elim_none, List.count_nil] at hput
  omega

theorem Isolated.not_reached {group : ℕ → Prop} (hgroup : Isolated refs h ext group)
    (hid : group id) : ¬h.Reached refs ext id := by
  rintro ⟨root, hroot, hpath⟩
  refine hgroup.outside root hroot ?_
  clear hroot
  induction hpath using Relation.ReflTransGen.head_induction_on with
  | refl => exact hid
  | head hfirst _ ih => exact hgroup.closed _ _ hfirst ih

/-- Two objects with no other references than those to each other. -/
theorem Sound.cycle_unreached (hs : Sound refs h ext) (hab : h.Points refs a b)
    (hba : h.Points refs b a) (ha : h.count a = 1) (hb : h.count b = 1) :
    ¬h.Reached refs ext a := by
  have hsingle : ∀ {x y}, h.Points refs x y → h.count y = 1 →
      y ∉ ext ∧ ∀ z, h.Points refs z y → z = x := by
    intro x y hxy hy
    obtain ⟨v, hvalue, hv⟩ := hxy
    have hpos := List.count_pos_iff.mpr ((mem_held refs).mpr ⟨x, v, hvalue, hv⟩)
    have hcount := hs.counted y
    refine ⟨List.count_eq_zero.mp (by omega), fun z hz => ?_⟩
    exact holder_unique (by omega) ⟨v, hvalue, hv⟩ hz
  obtain ⟨haout, hatob⟩ := hsingle hba ha
  obtain ⟨hbout, hbtoa⟩ := hsingle hab hb
  have hgroup : Isolated refs h ext fun x => x = a ∨ x = b := by
    refine ⟨?_, ?_, ?_⟩
    · rintro root hroot (rfl | rfl)
      · exact haout hroot
      · exact hbout hroot
    · rintro x y hxy (rfl | rfl)
      · exact Or.inr (hatob x hxy)
      · exact Or.inl (hbtoa x hxy)
    · rintro x (rfl | rfl)
      · exact hab.lt_fresh
      · exact hba.lt_fresh
  exact hgroup.not_reached (Or.inl rfl)

end Garbage

end Heap

end CountedHeap
