import Mathlib.Data.List.Cycle

/-!
Circular doubly linked lists over an arbitrary type of nodes. The memory of a
list is its head pointer and, for every node, a nullable pointer to the next
and to the previous node. `Represents` ties such a memory to a duplicate-free
list of nodes: the pointers form one cycle in both directions and every node
outside it has null pointers. The two rewiring lemmas, `insert_last` and
`unlink`, are all that a program manipulating such a list has to use.
-/

namespace CircularList

variable {N : Type*}

structure Links (N : Type*) where
  next : N → Option N
  prev : N → Option N
  head : Option N

namespace Links

/-- All pointers are null. -/
def empty : Links N := ⟨fun _ => none, fun _ => none, none⟩

/-- One forward pointer and the backward pointer that belongs to it. -/
def Edge (links : Links N) (a b : N) : Prop :=
  links.next a = some b ∧ links.prev b = some a

/-- The list that a memory holds, read from the head. -/
structure Represents (links : Links N) (order : List N) : Prop where
  nodup : order.Nodup
  head_eq : links.head = order.head?
  cycle : Cycle.Chain links.Edge (order : Cycle N)
  next_outside : ∀ n, n ∉ order → links.next n = none
  prev_outside : ∀ n, n ∉ order → links.prev n = none

theorem empty_represents : (empty : Links N).Represents [] :=
  ⟨List.nodup_nil, rfl, Cycle.Chain.nil _, fun _ _ => rfl, fun _ _ => rfl⟩

def setHead (links : Links N) (target : Option N) : Links N :=
  { links with head := target }

@[simp] theorem setHead_next (links : Links N) (target : Option N) :
    (links.setHead target).next = links.next := rfl

@[simp] theorem setHead_prev (links : Links N) (target : Option N) :
    (links.setHead target).prev = links.prev := rfl

@[simp] theorem setHead_head (links : Links N) (target : Option N) :
    (links.setHead target).head = target := rfl

section Writes

variable [DecidableEq N]

def setNext (links : Links N) (n : N) (target : Option N) : Links N :=
  { links with next := Function.update links.next n target }

def setPrev (links : Links N) (n : N) (target : Option N) : Links N :=
  { links with prev := Function.update links.prev n target }

@[simp] theorem setNext_next (links : Links N) (n m : N) (target : Option N) :
    (links.setNext n target).next m = if m = n then target else links.next m := by
  simp [setNext, Function.update_apply]

@[simp] theorem setNext_prev (links : Links N) (n : N) (target : Option N) :
    (links.setNext n target).prev = links.prev := rfl

@[simp] theorem setNext_head (links : Links N) (n : N) (target : Option N) :
    (links.setNext n target).head = links.head := rfl

@[simp] theorem setPrev_prev (links : Links N) (n m : N) (target : Option N) :
    (links.setPrev n target).prev m = if m = n then target else links.prev m := by
  simp [setPrev, Function.update_apply]

@[simp] theorem setPrev_next (links : Links N) (n : N) (target : Option N) :
    (links.setPrev n target).next = links.next := rfl

@[simp] theorem setPrev_head (links : Links N) (n : N) (target : Option N) :
    (links.setPrev n target).head = links.head := rfl

end Writes

/-- A chain survives a change of the relation that only concerns pointers out
of its last node and pointers back from its first node. -/
theorem isChain_frame {before after : N → N → Prop} {l : List N}
    (hnodup : l.Nodup) (hchain : l.IsChain before)
    (hkeep : ∀ a b, a ∈ l → b ∈ l → some a ≠ l.getLast? → some b ≠ l.head? →
      before a b → after a b) :
    l.IsChain after := by
  rw [List.isChain_iff_getElem] at hchain ⊢
  intro i hi
  refine hkeep _ _ (List.getElem_mem _) (List.getElem_mem _) ?_ ?_ (hchain i hi)
  · intro hlast
    rw [List.getLast?_eq_getElem?, List.getElem?_eq_getElem (by omega)] at hlast
    have hindex := (hnodup.getElem_inj_iff).mp (Option.some.inj hlast)
    omega
  · intro hhead
    rw [List.head?_eq_getElem?, List.getElem?_eq_getElem (by omega)] at hhead
    have hindex := (hnodup.getElem_inj_iff).mp (Option.some.inj hhead)
    omega

/-- Rotate the cycle so that a given member comes first. -/
theorem rotate_to (first : N) (left right : List N) :
    ((left ++ first :: right : List N) : Cycle N) =
      ((first :: (right ++ left) : List N) : Cycle N) := by
  rw [Cycle.coe_eq_coe]
  exact List.isRotated_append

theorem chain_cons_iff {edge : N → N → Prop} {node first : N} {rest : List N} :
    Cycle.Chain edge ((node :: first :: rest : List N) : Cycle N) ↔
      edge node first ∧ (first :: rest).IsChain edge ∧
        ∀ last ∈ (first :: rest).getLast?, edge last node := by
  rw [Cycle.chain_coe_cons, List.cons_append, List.isChain_cons_cons,
    ← List.cons_append, List.isChain_append]
  simp

theorem chain_iff {edge : N → N → Prop} {first : N} {rest : List N} :
    Cycle.Chain edge ((first :: rest : List N) : Cycle N) ↔
      (first :: rest).IsChain edge ∧
        ∀ last ∈ (first :: rest).getLast?, edge last first := by
  rw [Cycle.chain_coe_cons, ← List.cons_append, List.isChain_append]
  simp

/-- What the two pointers of a member of the list are: the ends of the rest of
the cycle, or the node itself when it is the only one. -/
theorem Represents.neighbours {links : Links N} {left right : List N} {node : N}
    (h : links.Represents (left ++ node :: right)) :
    links.next node = (right ++ left ++ [node]).head? ∧
      links.prev node = (node :: (right ++ left)).getLast? ∧
      (right ++ left).IsChain links.Edge := by
  have hcycle := h.cycle
  rw [rotate_to] at hcycle
  cases hrest : right ++ left with
  | nil =>
      rw [hrest, Cycle.chain_singleton] at hcycle
      exact ⟨hcycle.1, hcycle.2, List.isChain_nil⟩
  | cons first rest =>
      rw [hrest, chain_cons_iff] at hcycle
      obtain ⟨hfirst, hchain, hlast⟩ := hcycle
      refine ⟨hfirst.1, ?_, hchain⟩
      rw [List.getLast?_cons_cons]
      have hsome := List.getLast?_eq_getLast_of_ne_nil (List.cons_ne_nil first rest)
      rw [hsome]
      exact (hlast _ hsome).2

theorem Represents.next_isSome_iff {links : Links N} {order : List N}
    (h : links.Represents order) (node : N) :
    (links.next node).isSome ↔ node ∈ order := by
  constructor
  · intro hsome
    by_contra hout
    rw [h.next_outside node hout] at hsome
    cases hsome
  · intro hmem
    obtain ⟨left, right, rfl⟩ := List.append_of_mem hmem
    rw [h.neighbours.1]
    cases right ++ left <;> simp

theorem Represents.next_eq_none_iff {links : Links N} {order : List N}
    (h : links.Represents order) (node : N) :
    links.next node = none ↔ node ∉ order := by
  rw [← h.next_isSome_iff node]
  cases links.next node <;> simp

/-- A member points at itself exactly when it is alone in the list. -/
theorem Represents.next_self_iff {links : Links N} {order : List N}
    (h : links.Represents order) {node : N} (hmem : node ∈ order) :
    links.next node = some node ↔ order = [node] := by
  obtain ⟨left, right, rfl⟩ := List.append_of_mem hmem
  have hout : node ∉ right ++ left := by
    have hnodup := h.nodup
    rw [List.nodup_middle, List.nodup_cons] at hnodup
    simpa [or_comm] using hnodup.1
  rw [h.neighbours.1]
  constructor
  · intro hself
    cases hrest : right ++ left with
    | nil =>
        obtain ⟨rfl, rfl⟩ := List.append_eq_nil_iff.mp hrest
        rfl
    | cons first rest =>
        rw [hrest] at hself hout
        have hfirst : first = node := by simpa using hself
        simp [hfirst] at hout
  · intro halone
    have hlength := congrArg List.length halone
    simp only [List.length_append, List.length_cons, List.length_nil] at hlength
    have hleft : left = [] := List.length_eq_zero_iff.mp (by omega)
    have hright : right = [] := List.length_eq_zero_iff.mp (by omega)
    simp [hleft, hright]

/-- Following the forward pointers from the head meets exactly the members. -/
theorem Represents.reach_iff {links : Links N} {order : List N}
    (h : links.Represents order) (node : N) :
    (∃ head, links.head = some head ∧
      Relation.ReflTransGen (fun a b => links.next a = some b) head node) ↔
        node ∈ order := by
  constructor
  · rintro ⟨head, hhead, hreach⟩
    have hstart : head ∈ order := List.mem_of_head? (h.head_eq ▸ hhead)
    induction hreach with
    | refl => exact hstart
    | tail _ hnext ih =>
        obtain ⟨left, right, rfl⟩ := List.append_of_mem ih
        rw [h.neighbours.1] at hnext
        have hmem := List.mem_of_head? hnext
        simp only [List.mem_append, List.mem_cons, List.not_mem_nil, or_false] at hmem ⊢
        tauto
  · intro hmem
    cases order with
    | nil => simp at hmem
    | cons first rest =>
        refine ⟨first, h.head_eq, ?_⟩
        have hchain := (chain_iff.mp h.cycle).1
        have hforward : (first :: rest).IsChain
            (fun a b => links.next a = some b) := hchain.imp fun _ _ he => he.1
        exact List.IsChain.induction _ _ hforward
          (fun _ _ hnext hreach => hreach.tail hnext)
          (fun _ => Relation.ReflTransGen.refl) node hmem

section Following

variable {links other : Links N} {order : List N}

/-- Follow a pointer a number of times. -/
def follow (pointer : N → Option N) (count : Nat) (start : Option N) : Option N :=
  (fun node => node.bind pointer)^[count] start

theorem Represents.next_getElem (h : links.Represents order) {i : Nat} (hi : i < order.length) :
    links.next order[i] = order[(i + 1) % order.length]? := by
  have hsplit : order.take i ++ order[i] :: order.drop (i + 1) = order := by
    rw [List.getElem_cons_drop, List.take_append_drop]
  have hmiddle : links.Represents (order.take i ++ order[i] :: order.drop (i + 1)) := by
    rw [hsplit]
    exact h
  rw [hmiddle.neighbours.1]
  by_cases hlast : i + 1 < order.length
  · rw [Nat.mod_eq_of_lt hlast, List.append_assoc, List.head?_append, List.head?_drop,
      List.getElem?_eq_getElem hlast]
    rfl
  · -- the last node points back to the first
    have hlength : i + 1 = order.length := by omega
    rw [hlength, Nat.mod_self, List.drop_length, List.nil_append, List.take_append_getElem hi,
      hlength, List.take_length, List.head?_eq_getElem?]

/-- Read backwards, the memory holds the reverse of the list. -/
theorem Represents.mirror (h : links.Represents order) :
    (⟨links.prev, links.next, order.getLast?⟩ : Links N).Represents order.reverse := by
  refine ⟨List.nodup_reverse.mpr h.nodup, List.head?_reverse.symm, ?_, ?_, ?_⟩
  · have hcycle := h.cycle
    cases order with
    | nil => exact Cycle.Chain.nil _
    | cons first rest =>
        have hreverse : ((first :: rest).reverse : Cycle N) = (first :: rest.reverse : List N) := by
          rw [List.reverse_cons, ← Cycle.coe_cons_eq_coe_append]
        rw [Cycle.chain_coe_cons] at hcycle
        rw [hreverse, Cycle.chain_coe_cons]
        have hback : (first :: (rest.reverse ++ [first])) =
          (first :: (rest ++ [first])).reverse := by
          simp
        rw [hback, List.isChain_reverse]
        exact hcycle.imp fun _ _ hedge => ⟨hedge.2, hedge.1⟩
  · intro n hn
    exact h.prev_outside n (by simpa using hn)
  · intro n hn
    exact h.next_outside n (by simpa using hn)

/-- Following the forward pointers from the head goes through the list over and
over again. -/
theorem Represents.follow_next (h : links.Represents order) (count : Nat) :
    follow links.next count links.head = order[count % order.length]? := by
  induction count with
  | zero =>
      rw [Nat.zero_mod, ← List.head?_eq_getElem?, ← h.head_eq, follow, Function.iterate_zero_apply]
  | succ count ih =>
      rw [follow, Function.iterate_succ_apply', ← follow, ih]
      by_cases hempty : order = []
      · simp [hempty]
      · have hlt : count % order.length < order.length :=
          Nat.mod_lt _ (List.length_pos_iff.mpr hempty)
        rw [List.getElem?_eq_getElem hlt, Option.bind_some, h.next_getElem hlt, Nat.mod_add_mod]

/-- Following the backward pointers goes through its reverse. -/
theorem Represents.follow_prev (h : links.Represents order) (count : Nat) :
    follow links.prev (count + 1) links.head = order.reverse[count % order.length]? := by
  have hlast : links.head.bind links.prev = order.getLast? := by
    rw [h.head_eq]
    cases order with
    | nil => rfl
    | cons first rest =>
        have hfront : links.Represents ([] ++ first :: rest) := h
        rw [List.head?_cons, Option.bind_some, hfront.neighbours.2.1, List.append_nil]
  have hback := h.mirror.follow_next count
  rw [List.length_reverse] at hback
  rw [follow, Function.iterate_succ_apply, hlast]
  exact hback

theorem Represents.prev_isSome_iff (h : links.Represents order) (node : N) :
    (links.prev node).isSome ↔ node ∈ order := by
  rw [← List.mem_reverse]
  exact h.mirror.next_isSome_iff node

theorem Represents.next_eq (h : links.Represents order) (h' : other.Represents order) :
    links.next = other.next := by
  funext node
  by_cases hmem : node ∈ order
  · obtain ⟨i, hi, rfl⟩ := List.getElem_of_mem hmem
    rw [h.next_getElem hi, h'.next_getElem hi]
  · rw [h.next_outside node hmem, h'.next_outside node hmem]

/-- The list determines all pointers. -/
theorem Represents.unique (h : links.Represents order) (h' : other.Represents order) :
    links = other := by
  have hnext := h.next_eq h'
  have hprev := h.mirror.next_eq h'.mirror
  have hhead := h.head_eq.trans h'.head_eq.symm
  exact congr (congr (congrArg Links.mk hnext) hprev) hhead

/-- The pointers determine the list. -/
theorem Represents.determined {order' : List N} (h : links.Represents order)
    (h' : links.Represents order') : order = order' := by
  have hlength : order.length = order'.length := by
    apply List.Perm.length_eq
    rw [List.perm_ext_iff_of_nodup h.nodup h'.nodup]
    intro node
    rw [← h.reach_iff, h'.reach_iff]
  apply List.ext_getElem? fun i => ?_
  by_cases hlt : i < order.length
  · have hsame := (h.follow_next i).symm.trans (h'.follow_next i)
    rwa [Nat.mod_eq_of_lt hlt, ← hlength, Nat.mod_eq_of_lt hlt] at hsame
  · rw [List.getElem?_eq_none (by omega), List.getElem?_eq_none (by omega)]

end Following

section Rewiring

variable [DecidableEq N] {links : Links N}

theorem Represents.insert_first (h : links.Represents []) (node : N) :
    (((links.setHead (some node)).setNext node (some node)).setPrev node
      (some node)).Represents [node] := by
  refine ⟨List.nodup_singleton node, rfl, ?_, ?_, ?_⟩
  · rw [Cycle.chain_singleton]
    simp [Edge]
  · intro n hn
    have hne : n ≠ node := by simpa using hn
    simp [hne, h.next_outside n]
  · intro n hn
    have hne : n ≠ node := by simpa using hn
    simp [hne, h.prev_outside n]

/-- Linking a fresh node in before the head puts it at the end of the list. -/
theorem Represents.insert_last {first : N} {rest : List N} {node : N}
    (h : links.Represents (first :: rest)) (hfresh : node ∉ first :: rest) :
    ∃ last, links.prev first = some last ∧
      ((((links.setNext node (some first)).setPrev node (some last)).setNext last
        (some node)).setPrev first (some node)).Represents
          (first :: rest ++ [node]) := by
  have hfront : links.Represents ([] ++ first :: rest) := h
  obtain ⟨_, hprev, _⟩ := hfront.neighbours
  rw [List.append_nil] at hprev
  have hsome := List.getLast?_eq_getLast_of_ne_nil (List.cons_ne_nil first rest)
  set last := (first :: rest).getLast (List.cons_ne_nil first rest) with hlastdef
  have hlastmem : last ∈ first :: rest := List.getLast_mem _
  have hlastne : last ≠ node := fun heq => hfresh (heq ▸ hlastmem)
  have hfirstne : first ≠ node := fun heq => hfresh (by simp [heq])
  have hchain := (chain_iff.mp h.cycle).1
  refine ⟨last, hprev.trans hsome, ?_, ?_, ?_, ?_, ?_⟩
  · rw [List.nodup_append]
    refine ⟨h.nodup, List.nodup_singleton node, ?_⟩
    intro a ha b hb
    rw [List.mem_singleton] at hb
    exact fun heq => hfresh (hb ▸ heq ▸ ha)
  · simp [h.head_eq]
  · rw [← Cycle.coe_cons_eq_coe_append, chain_cons_iff]
    refine ⟨?_, ?_, ?_⟩
    · simp [Edge, hlastne.symm]
    · apply isChain_frame h.nodup hchain
      intro a b ha hb hnotlast hnothead hedge
      have hane : a ≠ node := fun heq => hfresh (heq ▸ ha)
      have hbne : b ≠ node := fun heq => hfresh (heq ▸ hb)
      have hal : a ≠ last := fun heq => hnotlast (heq ▸ hsome.symm)
      have hbf : b ≠ first := fun heq => hnothead (by simp [heq])
      simpa [Edge, hane, hbne, hal, hbf] using hedge
    · intro other hother
      have heq : other = last := Option.some.inj (hother.symm.trans hsome)
      subst heq
      simp [Edge, hfirstne.symm]
  · intro n hn
    have hn' : n ∉ first :: rest := fun hmem => hn (by simp_all)
    have hne : n ≠ node := fun heq => hn (by simp [heq])
    have hnl : n ≠ last := fun heq => hn' (heq ▸ hlastmem)
    simp [hne, hnl, h.next_outside n hn']
  · intro n hn
    have hn' : n ∉ first :: rest := fun hmem => hn (by simp_all)
    have hne : n ≠ node := fun heq => hn (by simp [heq])
    have hnf : n ≠ first := fun heq => hn' (by simp [heq])
    simp [hne, hnf, h.prev_outside n hn']

theorem Represents.unlink_only {node : N} (h : links.Represents [node]) :
    (((links.setHead none).setNext node none).setPrev node none).Represents [] := by
  refine ⟨List.nodup_nil, rfl, Cycle.Chain.nil _, ?_, ?_⟩
  · intro n _
    by_cases hn : n = node
    · simp [hn]
    · simp [hn, h.next_outside n (by simpa using hn)]
  · intro n _
    by_cases hn : n = node
    · simp [hn]
    · simp [hn, h.prev_outside n (by simpa using hn)]

/-- Closing the cycle over a member that is not alone removes exactly that
member, whatever its position; the head must then be that of the rest. -/
theorem Represents.unlink {order : List N} {node succ pred : N}
    (h : links.Represents order) (hnext : links.next node = some succ)
    (hprev : links.prev node = some pred) (hne : succ ≠ node)
    (head : Option N) (hhead : head = (order.erase node).head?) :
    (((((links.setPrev succ (some pred)).setNext pred (some succ)).setHead
      head).setNext node none).setPrev node none).Represents (order.erase node) := by
  have hmem : node ∈ order := (h.next_isSome_iff node).mp (by simp [hnext])
  obtain ⟨left, right, rfl⟩ := List.append_of_mem hmem
  obtain ⟨hnext', hprev', hchain⟩ := h.neighbours
  have hnodup := h.nodup
  rw [List.nodup_middle, List.nodup_cons] at hnodup
  obtain ⟨hout, hnodup⟩ := hnodup
  have herase : (left ++ node :: right).erase node = left ++ right := by
    rw [List.erase_append_right _ (fun hin => hout (by simp [hin]))]
    simp
  rw [herase] at hhead ⊢
  have hrotated : (right ++ left).Nodup := (List.perm_append_comm.nodup_iff).mp hnodup
  have hout' : node ∉ right ++ left := by simpa [or_comm] using hout
  cases hrest : right ++ left with
  | nil =>
      rw [hrest] at hnext'
      exact absurd (Option.some.inj (hnext.symm.trans hnext')) hne
  | cons first rest =>
      rw [hrest] at hnext' hprev' hchain hrotated hout'
      have hfirst : succ = first := Option.some.inj (hnext.symm.trans hnext')
      subst hfirst
      rw [List.getLast?_cons_cons] at hprev'
      have hlast : (succ :: rest).getLast? = some pred := hprev'.symm.trans hprev
      have hpredmem : pred ∈ succ :: rest := List.mem_of_getLast? hlast
      have hpredne : pred ≠ node := fun heq => hout' (heq ▸ hpredmem)
      have hmem_iff (n : N) : n ∈ left ++ right ↔ n ∈ succ :: rest := by
        rw [← hrest, List.mem_append, List.mem_append, or_comm]
      refine ⟨hnodup, hhead, ?_, ?_, ?_⟩
      · have hcycle : ((left ++ right : List N) : Cycle N) =
            ((succ :: rest : List N) : Cycle N) := by
          rw [← hrest, Cycle.coe_eq_coe]
          exact List.isRotated_append
        rw [hcycle, chain_iff]
        constructor
        · apply isChain_frame hrotated hchain
          intro a b ha hb hnotlast hnothead hedge
          have hane : a ≠ node := fun heq => hout' (heq ▸ ha)
          have hbne : b ≠ node := fun heq => hout' (heq ▸ hb)
          have hap : a ≠ pred := fun heq => hnotlast (heq ▸ hlast.symm)
          have hbs : b ≠ succ := fun heq => hnothead (by simp [heq])
          simpa [Edge, hane, hbne, hap, hbs] using hedge
        · intro other hother
          have heq : other = pred := Option.some.inj (hother.symm.trans hlast)
          subst heq
          simp [Edge, hne, hpredne]
      · intro n hn
        by_cases hnode : n = node
        · simp [hnode]
        · have hnp : n ≠ pred := fun heq => hn ((hmem_iff n).mpr (heq ▸ hpredmem))
          have houtside : n ∉ left ++ node :: right := by
            simp only [List.mem_append, List.mem_cons] at hn ⊢
            tauto
          simp [hnode, hnp, h.next_outside n houtside]
      · intro n hn
        by_cases hnode : n = node
        · simp [hnode]
        · have hns : n ≠ succ := fun heq => hn ((hmem_iff n).mpr (by simp [heq]))
          have houtside : n ∉ left ++ node :: right := by
            simp only [List.mem_append, List.mem_cons] at hn ⊢
            tauto
          simp [hnode, hns, h.prev_outside n houtside]

end Rewiring

end Links

end CircularList
