import Mathlib.Data.List.Basic

/-!
Tables of nodes in which every node names the index of its parent and index 0
is the root. Following the parents from an index gives a chain of nodes. A loop
that follows them is modelled with fuel, and `Chain` says what it visits: the
loop returns as soon as there is fuel for every node of the chain.
-/

namespace ParentChain

variable {α σ L : Type*}

/-- The indexes and nodes met on the way from an index to the root. -/
inductive Chain (node : Nat → Option α) (parent : α → Nat) : Nat → List (Nat × α) → Prop
  | root : Chain node parent 0 []
  | link {i : Nat} {a : α} {rest : List (Nat × α)} (hne : i ≠ 0) (hnode : node i = some a)
      (hrest : Chain node parent (parent a) rest) : Chain node parent i ((i, a) :: rest)

/-- The loop `while (i) { a = node[i]; s = body(s, i, a); i = a.parent; }`. It
has no result when an index has no node, the body fails, or the fuel runs out. -/
def walk (node : Nat → Option α) (parent : α → Nat) (body : σ → Nat → α → Option σ) :
    Nat → Nat → σ → Option σ
  | _, 0, s => some s
  | 0, _ + 1, _ => none
  | fuel + 1, i + 1, s =>
      (node (i + 1)).bind fun a =>
        (body s (i + 1) a).bind fun next => walk node parent body fuel (parent a) next

variable {node node' : Nat → Option α} {parent : α → Nat}

namespace Chain

theorem unique {i : Nat} {first second : List (Nat × α)} (hfirst : Chain node parent i first)
    (hsecond : Chain node parent i second) : first = second := by
  induction hfirst generalizing second with
  | root =>
      cases hsecond with
      | root => rfl
      | link hne _ _ => exact absurd rfl hne
  | link hne hnode _ ih =>
      cases hsecond with
      | root => exact absurd rfl hne
      | link _ hnode' hrest' =>
          obtain rfl := Option.some.inj (hnode.symm.trans hnode')
          rw [ih hrest']

/-- A chain stays when the table grows. -/
theorem mono (hgrow : ∀ i a, node i = some a → node' i = some a) {i : Nat}
    {chain : List (Nat × α)} (hchain : Chain node parent i chain) :
    Chain node' parent i chain := by
  induction hchain with
  | root => exact .root
  | link hne hnode _ ih => exact .link hne (hgrow _ _ hnode) ih

theorem node_of_mem {i : Nat} {chain : List (Nat × α)} (hchain : Chain node parent i chain)
    {j : Nat} {a : α} (hmem : (j, a) ∈ chain) : j ≠ 0 ∧ node j = some a := by
  induction hchain with
  | root => cases hmem
  | link hne hnode _ ih =>
      rcases List.mem_cons.mp hmem with heq | hrest
      · cases heq
        exact ⟨hne, hnode⟩
      · exact ih hrest

/-- When a label and a parent determine a node, the labels along a chain
determine where it starts. -/
theorem start_eq {label : Nat × α → L}
    (hunique : ∀ i j a b, i ≠ 0 → j ≠ 0 → node i = some a → node j = some b →
      label (i, a) = label (j, b) → parent a = parent b → i = j)
    {i j : Nat} {first second : List (Nat × α)} (hfirst : Chain node parent i first)
    (hsecond : Chain node parent j second) (hlabels : first.map label = second.map label) :
    i = j := by
  induction hfirst generalizing j second with
  | root =>
      cases hsecond with
      | root => rfl
      | link _ _ _ => cases hlabels
  | link hne hnode _ ih =>
      cases hsecond with
      | root => cases hlabels
      | link hne' hnode' hrest' =>
          obtain ⟨hhead, htail⟩ := List.cons.inj hlabels
          exact hunique _ _ _ _ hne hne' hnode hnode' hhead (ih hrest' htail)

theorem walk_eq (body : σ → Nat → α → Option σ) {i : Nat} {chain : List (Nat × α)}
    (hchain : Chain node parent i chain) {fuel : Nat} (hfuel : chain.length ≤ fuel) (s : σ) :
    walk node parent body fuel i s = chain.foldlM (fun s link => body s link.1 link.2) s := by
  induction hchain generalizing fuel s with
  | root => cases fuel <;> rfl
  | @link i a rest hne hnode _ ih =>
      obtain ⟨i, rfl⟩ := Nat.exists_eq_succ_of_ne_zero hne
      obtain ⟨fuel, rfl⟩ : ∃ more, fuel = more + 1 := ⟨fuel - 1, by simp at hfuel; omega⟩
      have hrest : rest.length ≤ fuel := by simpa using hfuel
      simp only [walk, hnode, Option.bind_some, List.foldlM_cons]
      exact Option.bind_congr fun next _ => ih hrest next

/-- A loop that only collects something of each node returns it for the chain. -/
theorem walk_collect {β : Type*} (pick : Nat → α → β) {i : Nat} {chain : List (Nat × α)}
    (hchain : Chain node parent i chain) {fuel : Nat} (hfuel : chain.length ≤ fuel) :
    walk node parent (fun met i a => some (met ++ [pick i a])) fuel i [] =
      some (chain.map fun link => pick link.1 link.2) := by
  have hfold : ∀ (items : List (Nat × α)) (met : List β),
      items.foldlM (fun met link => some (met ++ [pick link.1 link.2])) met =
        some (met ++ items.map fun link => pick link.1 link.2) := by
    intro items
    induction items with
    | nil => simp
    | cons item rest ih => intro met; simp [ih]
  rw [hchain.walk_eq _ hfuel]
  exact hfold chain []

end Chain

/-- Every index below the bound has a node, and its parent comes before it. -/
def Grounded (node : Nat → Option α) (parent : α → Nat) (size : Nat) : Prop :=
  ∀ i, i ≠ 0 → i < size → ∃ a, node i = some a ∧ parent a < i

theorem Grounded.chain {size : Nat} (hgrounded : Grounded node parent size) {i : Nat}
    (hi : i = 0 ∨ i < size) : ∃ chain, Chain node parent i chain ∧ chain.length ≤ i := by
  induction i using Nat.strongRecOn with
  | ind i ih =>
      by_cases hzero : i = 0
      · exact hzero ▸ ⟨[], .root, Nat.le_refl 0⟩
      · have hlt : i < size := hi.resolve_left hzero
        obtain ⟨a, hnode, hparent⟩ := hgrounded i hzero hlt
        obtain ⟨rest, hrest, hlength⟩ := ih (parent a) hparent (by omega)
        exact ⟨(i, a) :: rest, .link hzero hnode hrest, by simp; omega⟩

theorem foldlM_isSome {β : Type*} {body : σ → β → Option σ} {items : List β}
    (hbody : ∀ s, ∀ item ∈ items, (body s item).isSome) (s : σ) :
    (items.foldlM body s).isSome := by
  induction items generalizing s with
  | nil => rfl
  | cons item rest ih =>
      obtain ⟨next, hnext⟩ := Option.isSome_iff_exists.mp (hbody s item List.mem_cons_self)
      rw [List.foldlM_cons, hnext]
      exact ih (fun s other hmem => hbody s other (List.mem_cons_of_mem _ hmem)) next

/-- A loop over a grounded table returns when its body does. -/
theorem Grounded.walk_isSome {size : Nat} (hgrounded : Grounded node parent size) {i : Nat}
    (hi : i = 0 ∨ i < size) {fuel : Nat} (hfuel : i ≤ fuel) {body : σ → Nat → α → Option σ}
    (hbody : ∀ s j a, j ≠ 0 → node j = some a → (body s j a).isSome) (s : σ) :
    (walk node parent body fuel i s).isSome := by
  obtain ⟨chain, hchain, hlength⟩ := hgrounded.chain hi
  rw [hchain.walk_eq body (by omega)]
  apply foldlM_isSome
  intro s link hmem
  obtain ⟨hne, hnode⟩ := hchain.node_of_mem hmem
  exact hbody s link.1 link.2 hne hnode

end ParentChain
