import Excimer.Object.Store

/-!
Who holds what. Every count is the number of references to the object, so nothing
is freed that somebody holds. Every reference leads to an object of the right class,
the log of an entry has that entry, and the entry that a reader keeps is the one at
its index. Objects do not change their class, and logs only grow. What `z_current`
refers to in the middle of a move has been freed.
-/

namespace Excimer

/-- A log with more samples. -/
structure Log.Grows (log next : Log) : Prop where
  table : Log.Extends log next
  entries : log.entries <+: next.entries
  epoch : next.epoch = log.epoch

namespace Log.Grows

variable {log next : Log}

theorem refl (log : Log) : Log.Grows log log := ⟨.refl log, List.prefix_refl _, rfl⟩

theorem trans {mid : Log} (hfirst : Log.Grows log mid) (hsecond : Log.Grows mid next) :
    Log.Grows log next where
  table := hfirst.table.trans hsecond.table
  entries := hfirst.entries.trans hsecond.entries
  epoch := hsecond.epoch.trans hfirst.epoch

theorem add (hwf : log.WellFormed) {stack : List ExecuteData} {eventCount : Int} {now : UInt64}
    (hadd : log.add stack eventCount now = some next) : Log.Grows log next := by
  obtain ⟨-, htable, -, -, entry, hentries, -⟩ := Log.add_spec hwf hadd
  obtain ⟨hepoch, -, -⟩ := Log.add_fields hadd
  exact ⟨htable, hentries ▸ List.prefix_append _ _, hepoch⟩

/-- The depth limit and the period are no part of what is recorded. -/
theorem of_options (hwf : log.WellFormed) (hframes : next.frames = log.frames)
    (hreverse : next.reverseFrames = log.reverseFrames) (hentries : next.entries = log.entries)
    (hepoch : next.epoch = log.epoch) : next.WellFormed ∧ Log.Grows log next := by
  refine ⟨hwf.of_table hframes hreverse (by rw [hentries]; exact hwf.entry_lt), ⟨?_, ?_, ?_⟩,
    hentries ▸ List.prefix_refl _, hepoch⟩
  · exact hframes ▸ List.prefix_refl _
  · exact fun hfind => hreverse ▸ hfind
  · exact fun hfind _ => hreverse ▸ hfind

theorem getEntry (hgrows : Log.Grows log next) {index : Int} {entry : Log.Entry}
    (hentry : log.getEntry index = some entry) : next.getEntry index = some entry := by
  obtain ⟨added, hentries⟩ := hgrows.entries
  obtain ⟨⟨hlow, hhigh⟩, hget⟩ := Option.ite_none_right_eq_some.mp hentry
  have hlt : index.toNat < log.entries.length := by omega
  rw [Log.getEntry, ← hentries, if_pos ⟨hlow, by rw [List.length_append]; omega⟩,
    List.getElem?_append_left hlt, hget]

end Log.Grows

namespace ObjectStore

open CountedHeap

/-- What an object may turn into. -/
inductive Node.Grows : Node → Node → Prop
  | profiler {zLog other : ℕ} : Grows (.profiler zLog) (.profiler other)
  | log {log next : Log} {reader other : Reader} (hlog : Log.Grows log next) :
      Grows (.log log reader) (.log next other)
  | entry {zLog : ℕ} {index : Int} : Grows (.entry zLog index) (.entry zLog index)
  | iterator {data : ℕ} {reader other : Reader} :
      Grows (.iterator data reader) (.iterator data other)

theorem Node.Grows.refl (node : Node) : node.Grows node := by
  cases node with
  | profiler zLog => exact .profiler
  | log log reader => exact .log (.refl log)
  | entry zLog index => exact .entry
  | iterator data reader => exact .iterator

theorem Node.Grows.trans {first second third : Node} (hfirst : first.Grows second)
    (hsecond : second.Grows third) : first.Grows third := by
  cases hfirst with
  | profiler => cases hsecond; exact .profiler
  | log hlog =>
      cases hsecond with
      | log hnext => exact .log (hlog.trans hnext)
  | entry => exact hsecond
  | iterator => cases hsecond; exact .iterator

/-- The objects of a later heap that were there before. -/
structure Evolves (h next : Heap Node) : Prop where
  fresh_le : h.fresh ≤ next.fresh
  origin : ∀ id node, next.value id = some node → id < h.fresh →
    ∃ old, h.value id = some old ∧ old.Grows node

section Evolution

variable {h mid next : Heap Node}

theorem lt_fresh_of_value {id : ℕ} {node : Node} (hvalue : h.value id = some node) :
    id < h.fresh := by
  obtain ⟨c, hcell, -⟩ := Heap.value_eq_some.mp hvalue
  exact Heap.lt_fresh hcell

theorem Evolves.refl (h : Heap Node) : Evolves h h :=
  ⟨Nat.le_refl _, fun _ node hvalue _ => ⟨node, hvalue, .refl node⟩⟩

theorem Evolves.trans (hfirst : Evolves h mid) (hsecond : Evolves mid next) : Evolves h next where
  fresh_le := hfirst.fresh_le.trans hsecond.fresh_le
  origin id node hvalue hlt := by
    obtain ⟨later, hlater, hgrows⟩ :=
      hsecond.origin id node hvalue (Nat.lt_of_lt_of_le hlt hfirst.fresh_le)
    obtain ⟨old, hold, hearlier⟩ := hfirst.origin id later hlater hlt
    exact ⟨old, hold, hearlier.trans hgrows⟩

theorem Evolves.of_shrinks (hshrinks : h.Shrinks next) : Evolves h next where
  fresh_le := Nat.le_of_eq hshrinks.fresh.symm
  origin id node hvalue _ := ⟨node, hshrinks.value id node hvalue, .refl node⟩

theorem Evolves.alloc (h : Heap Node) (node : Node) : Evolves h (h.alloc node) where
  fresh_le := by simp
  origin id other hvalue hlt := by
    rw [Heap.value_alloc, if_neg (Nat.ne_of_lt hlt)] at hvalue
    exact ⟨other, hvalue, .refl other⟩

theorem Evolves.write {id : ℕ} {c : Cell Node} {node : Node} (hcell : h.cell id = some c)
    (hgrows : c.value.Grows node) : Evolves h (h.put id (some { c with value := node })) where
  fresh_le := by simp
  origin other found hvalue _ := by
    rw [Heap.value_put hcell] at hvalue
    split at hvalue
    case isTrue heq =>
      obtain rfl := Option.some.inj hvalue
      exact ⟨c.value, heq ▸ Heap.value_eq_some.mpr ⟨c, hcell, rfl⟩, hgrows⟩
    case isFalse => exact ⟨found, hvalue, .refl found⟩

end Evolution

/-- What an object is to an object that refers to it. -/
def edge (id : ℕ) : Node → ℕ → Node → Prop
  | .profiler _, _, node => ∃ log reader, node = .log log reader
  | .log _ reader, _, node => node = .entry id reader.index
  | .entry _ index, _, node =>
      ∃ log reader, node = .log log reader ∧ (log.getEntry index).isSome
  | .iterator data reader, r, node =>
      (r = data → ∃ log other, node = .log log other) ∧
        (r ∈ reader.refs → node = .entry data reader.index)

theorem edge_grows {id r : ℕ} {holder node next : Node} (hedge : edge id holder r node)
    (hgrows : node.Grows next) : edge id holder r next := by
  cases holder with
  | profiler zLog =>
      obtain ⟨log, reader, rfl⟩ := hedge
      cases hgrows with
      | log => exact ⟨_, _, rfl⟩
  | log log reader =>
      obtain rfl : node = .entry id reader.index := hedge
      cases hgrows
      rfl
  | entry zLog index =>
      obtain ⟨log, reader, rfl, hentry⟩ := hedge
      obtain ⟨entry, hentry⟩ := Option.isSome_iff_exists.mp hentry
      cases hgrows with
      | log hlog => exact ⟨_, _, rfl, Option.isSome_iff_exists.mpr ⟨entry, hlog.getEntry hentry⟩⟩
  | iterator data reader =>
      refine ⟨fun hdata => ?_, fun hcurrent => ?_⟩
      · obtain ⟨log, other, rfl⟩ := hedge.1 hdata
        cases hgrows with
        | log => exact ⟨_, _, rfl⟩
      · obtain rfl := hedge.2 hcurrent
        cases hgrows
        rfl

/-- The position of a reader. -/
def Node.reader : Node → Option Reader
  | .log _ reader | .iterator _ reader => some reader
  | .profiler _ | .entry _ _ => none

/-- The readers in the middle of a move are those that are stale, and what `z_current`
of such a reader refers to has been freed. -/
structure Marked (h : Heap Node) (moving : List ℕ) : Prop where
  old : ∀ id ∈ moving, id < h.fresh
  stale : ∀ id node, h.value id = some node →
    (id ∈ moving ↔ ∃ reader, node.reader = some reader ∧ reader.stale = true)
  freed : ∀ id node reader, h.value id = some node → node.reader = some reader →
    reader.stale = true → ∃ e, reader.zCurrent = some e ∧ e < h.fresh ∧ h.value e = none

namespace Marked

variable {h next : Heap Node} {moving moved : List ℕ} {id : ℕ} {node : Node}

theorem shrink (hmarked : Marked h moving) (hshrinks : h.Shrinks next) : Marked next moving where
  old id hid := hshrinks.fresh ▸ hmarked.old id hid
  stale id node hvalue := hmarked.stale id node (hshrinks.value id node hvalue)
  freed id node reader hvalue hreader hstale := by
    obtain ⟨e, hcurrent, hlt, hfreed⟩ :=
      hmarked.freed id node reader (hshrinks.value id node hvalue) hreader hstale
    refine ⟨e, hcurrent, hshrinks.fresh ▸ hlt, Option.eq_none_iff_forall_ne_some.mpr ?_⟩
    intro found hfound
    cases hfreed.symm.trans (hshrinks.value e found hfound)

theorem alloc (hmarked : Marked h moving)
    (hnew : ∀ reader, node.reader = some reader → reader.stale = false) :
    Marked (h.alloc node) moving where
  old id hid := by
    rw [Heap.fresh_alloc]
    exact Nat.lt_succ_of_lt (hmarked.old id hid)
  stale id other hvalue := by
    rw [Heap.value_alloc] at hvalue
    split at hvalue
    case isTrue heq =>
      obtain rfl := Option.some.inj hvalue
      constructor
      · exact fun hid => absurd (hmarked.old id hid) (heq ▸ Nat.lt_irrefl _)
      · rintro ⟨reader, hreader, hstale⟩
        simp [hnew reader hreader] at hstale
    case isFalse => exact hmarked.stale id other hvalue
  freed id other reader hvalue hreader hstale := by
    rw [Heap.value_alloc] at hvalue
    split at hvalue
    case isTrue =>
      obtain rfl := Option.some.inj hvalue
      simp [hnew reader hreader] at hstale
    case isFalse =>
      obtain ⟨e, hcurrent, hlt, hfreed⟩ := hmarked.freed id other reader hvalue hreader hstale
      refine ⟨e, hcurrent, ?_, ?_⟩
      · rw [Heap.fresh_alloc]
        exact Nat.lt_succ_of_lt hlt
      · rw [Heap.value_alloc, if_neg (Nat.ne_of_lt hlt), hfreed]

/-- A change of an object that may begin or end a move. -/
theorem put (hmarked : Marked h moving) {c : Cell Node} (hcell : h.cell id = some c)
    (hothers : ∀ other, other ≠ id → (other ∈ moved ↔ other ∈ moving))
    (hself : id ∈ moved ↔ ∃ reader, node.reader = some reader ∧ reader.stale = true)
    (hfreed : ∀ reader, node.reader = some reader → reader.stale = true →
      ∃ e, reader.zCurrent = some e ∧ e < h.fresh ∧ h.value e = none) :
    Marked (h.put id (some { c with value := node })) moved where
  old other hother := by
    rw [Heap.fresh_put]
    by_cases heq : other = id
    · exact heq ▸ Heap.lt_fresh hcell
    · exact hmarked.old other ((hothers other heq).mp hother)
  stale other found hvalue := by
    rw [Heap.value_put hcell] at hvalue
    split at hvalue
    case isTrue heq =>
      obtain rfl := Option.some.inj hvalue
      exact heq ▸ hself
    case isFalse hne => exact (hothers other hne).trans (hmarked.stale other found hvalue)
  freed other found reader hvalue hreader hstale := by
    have hgone : ∃ e, reader.zCurrent = some e ∧ e < h.fresh ∧ h.value e = none := by
      rw [Heap.value_put hcell] at hvalue
      split at hvalue
      case isTrue =>
        obtain rfl := Option.some.inj hvalue
        exact hfreed reader hreader hstale
      case isFalse => exact hmarked.freed other found reader hvalue hreader hstale
    obtain ⟨e, hcurrent, hlt, hnone⟩ := hgone
    refine ⟨e, hcurrent, by rwa [Heap.fresh_put], ?_⟩
    have hne : e ≠ id := by
      rintro rfl
      rw [Heap.value, hcell] at hnone
      cases hnone
    rw [Heap.value_put hcell, if_neg hne, hnone]

end Marked

/-- The invariant, with the references that are not held by the objects and the readers
in the middle of a move. -/
structure Inv (h : Heap Node) (ext moving : List ℕ) : Prop where
  sound : h.Sound Node.refs ext
  linked : h.Linked Node.refs edge
  wellFormed : ∀ id log reader, h.value id = some (.log log reader) → log.WellFormed
  marked : Marked h moving

/-- What an operation makes of a heap with the invariant. -/
structure Effect (h : Heap Node) (ext : List ℕ) (next : Heap Node) (other moved : List ℕ) :
    Prop where
  inv : Inv next other moved
  evolves : Evolves h next
  spared : Heap.Spared Node.refs h ext next other

section Primitives

variable {h mid next : Heap Node} {ext other moving moved : List ℕ} {id : ℕ} {node : Node}

theorem Inv.perm (hinv : Inv h ext moving) (hperm : ext.Perm other) : Inv h other moving :=
  ⟨hinv.sound.perm hperm, hinv.linked, hinv.wellFormed, hinv.marked⟩

theorem Effect.refl (hinv : Inv h ext moving) : Effect h ext h ext moving :=
  ⟨hinv, .refl h, .of_subset (List.Subset.refl _)⟩

theorem Effect.trans {last : List ℕ} (hfirst : Effect h ext mid other moving)
    (hsecond : Effect mid other next last moved) : Effect h ext next last moved :=
  ⟨hsecond.inv, hfirst.evolves.trans hsecond.evolves, hfirst.spared.trans hsecond.spared⟩

theorem Effect.perm {last : List ℕ} (heffect : Effect h ext next other moved)
    (hperm : other.Perm last) : Effect h ext next last moved :=
  ⟨heffect.inv.perm hperm, heffect.evolves,
    heffect.spared.trans (.of_subset hperm.symm.subset)⟩

theorem Inv.value_of_mem (hinv : Inv h ext moving) (hid : id ∈ ext) :
    ∃ node, h.value id = some node := by
  obtain ⟨c, hcell⟩ := hinv.sound.live hid
  exact ⟨c.value, Heap.value_eq_some.mpr ⟨c, hcell, rfl⟩⟩

/-- The object that a reference of an object leads to. -/
theorem Inv.target (hinv : Inv h ext moving) (hvalue : h.value id = some node) {r : ℕ}
    (hr : r ∈ node.refs) : ∃ found, h.value r = some found ∧ edge id node r found :=
  hinv.linked id node hvalue r hr

theorem Inv.addRef (hinv : Inv h ext moving) (hvalue : h.value id = some node)
    (hknown : h.Known Node.refs ext id) :
    ∃ next, h.addRef id = some next ∧ Effect h ext next (id :: ext) moving ∧
      (∀ r, next.value r = h.value r) ∧ next.fresh = h.fresh := by
  obtain ⟨c, hcell, rfl⟩ := Heap.value_eq_some.mp hvalue
  have hsame : ∀ r, (h.put id (some { c with count := c.count + 1 })).value r = h.value r := by
    intro r
    rw [Heap.value_put hcell]
    split
    case isTrue heq => exact (heq ▸ hvalue).symm
    case isFalse => rfl
  have hshrinks : h.Shrinks (h.put id (some { c with count := c.count + 1 })) :=
    Heap.shrinks_put hcell (by simp)
  refine ⟨h.put id (some { c with count := c.count + 1 }), by simp [Heap.addRef, hcell],
    ⟨⟨hinv.sound.addRef hcell, hinv.linked.congr hsame, ?_, hinv.marked.shrink hshrinks⟩,
      .of_shrinks hshrinks, .put hcell hknown ?_ ?_⟩, hsame, Heap.fresh_put ..⟩
  · intro other log reader hother
    exact hinv.wellFormed other log reader (hsame other ▸ hother)
  · rintro cell ⟨⟩
    exact List.subset_append_left _ _
  · exact List.cons_subset_cons _ (List.subset_append_right _ _)

theorem Inv.unref (hinv : Inv h (id :: ext) moving) :
    ∃ next rest, h.unref Node.refs id = some (next, rest) ∧
      Effect h (id :: ext) next (rest ++ ext) moving := by
  obtain ⟨next, rest, hunref, hsound⟩ := hinv.sound.unref
  have hshrinks := Heap.unref_shrinks hunref
  refine ⟨next, rest, hunref, ⟨hsound, hinv.linked.shrink hshrinks hsound, ?_,
    hinv.marked.shrink hshrinks⟩, .of_shrinks hshrinks, .unref hunref⟩
  intro other log reader hother
  exact hinv.wellFormed other log reader (hshrinks.value _ _ hother)

theorem Inv.alloc (node : Node) (hinv : Inv h (node.refs ++ ext) moving)
    (hout : ∀ r ∈ node.refs, ∃ found, h.value r = some found ∧ edge h.fresh node r found)
    (hwf : ∀ log reader, node = .log log reader → log.WellFormed)
    (hnew : ∀ reader, node.reader = some reader → reader.stale = false) :
    Effect h (node.refs ++ ext) (h.alloc node) (h.fresh :: ext) moving := by
  refine ⟨⟨hinv.sound.alloc, hinv.linked.alloc hout, ?_, hinv.marked.alloc hnew⟩, .alloc h node,
    .alloc⟩
  intro other log reader hother
  rw [Heap.value_alloc] at hother
  split at hother
  case isTrue => exact hwf log reader (Option.some.inj hother)
  case isFalse => exact hinv.wellFormed other log reader hother

/-- A change of an object, with the references that it takes and gives back. -/
theorem Inv.put {c : Cell Node} (hinv : Inv h ext moving) (hcell : h.cell id = some c)
    (hknown : h.Known Node.refs ext id) (hgrows : c.value.Grows node)
    (hout : ∀ r ∈ node.refs, r ≠ id ∧ ∃ found, h.value r = some found ∧ edge id node r found)
    (hwf : ∀ log reader, node = .log log reader → log.WellFormed)
    (hrefs : (node.refs ++ other).Perm (c.value.refs ++ ext))
    (hmarked : Marked (h.put id (some { c with value := node })) moved) :
    Effect h ext (h.put id (some { c with value := node })) other moved := by
  refine ⟨⟨hinv.sound.write hcell hrefs, hinv.linked.write hcell ?_ ?_ ?_, ?_, hmarked⟩,
    .write hcell hgrows, .put hcell hknown ?_ ?_⟩
  · exact fun hmem => (hout id hmem).1 rfl
  · exact fun r hr => (hout r hr).2
  · exact fun a holder _ _ hedge => edge_grows hedge hgrows
  · intro r log reader hvalue
    rw [Heap.value_put hcell] at hvalue
    split at hvalue
    case isTrue => exact hwf log reader (Option.some.inj hvalue)
    case isFalse => exact hinv.wellFormed r log reader hvalue
  · rintro cell ⟨⟩
    exact fun r hr => hrefs.subset (List.mem_append_left _ hr)
  · exact fun r hr => List.mem_cons_of_mem _ (hrefs.subset (List.mem_append_right _ hr))

/-- A change of an object that neither begins nor ends a move. -/
theorem Inv.write {old : Node} (hinv : Inv h ext moving) (hvalue : h.value id = some old)
    (hknown : h.Known Node.refs ext id) (node : Node) (hgrows : old.Grows node)
    (hout : ∀ r ∈ node.refs, r ≠ id ∧ ∃ found, h.value r = some found ∧ edge id node r found)
    (hwf : ∀ log reader, node = .log log reader → log.WellFormed)
    (hrefs : (node.refs ++ other).Perm (old.refs ++ ext))
    (hreader : node.reader = old.reader ∨
      id ∉ moving ∧ ∀ reader, node.reader = some reader → reader.stale = false) :
    ∃ next, h.write id node = some next ∧ Effect h ext next other moving := by
  obtain ⟨c, hcell, rfl⟩ := Heap.value_eq_some.mp hvalue
  refine ⟨_, by simp [Heap.write, hcell], hinv.put hcell hknown hgrows hout hwf hrefs ?_⟩
  refine hinv.marked.put hcell (fun _ _ => Iff.rfl) ?_ ?_
  · rcases hreader with hsame | ⟨hidle, hnew⟩
    · rw [hsame]
      exact hinv.marked.stale id c.value hvalue
    · simp only [hidle, false_iff, not_exists, not_and, Bool.not_eq_true]
      exact hnew
  · intro reader hnode hstale
    rcases hreader with hsame | ⟨-, hnew⟩
    · exact hinv.marked.freed id c.value reader hvalue (hsame ▸ hnode) hstale
    · simp [hnew reader hnode] at hstale

end Primitives

section Accessors

variable {h : Heap Node} {id : ℕ}

theorem profilerAt_eq {zLog : ℕ} :
    profilerAt h id = some zLog ↔ h.value id = some (.profiler zLog) := by
  unfold profilerAt
  cases h.value id with
  | none => simp
  | some node => cases node <;> simp

theorem logAt_eq {log : Log} {reader : Reader} :
    logAt h id = some (log, reader) ↔ h.value id = some (.log log reader) := by
  unfold logAt
  cases h.value id with
  | none => simp
  | some node => cases node <;> simp

theorem entryAt_eq {zLog : ℕ} {index : Int} :
    entryAt h id = some (zLog, index) ↔ h.value id = some (.entry zLog index) := by
  unfold entryAt
  cases h.value id with
  | none => simp
  | some node => cases node <;> simp

/-- The two kinds of readers: a log object reads itself and an iterator reads its
log. -/
inductive Place (id : ℕ) : ℕ → (Reader → Node) → Prop
  | log (log : Log) : Place id id (.log log)
  | iterator (data : ℕ) : Place id data (.iterator data)

theorem Place.of_readerAt {target : ℕ} {reader : Reader}
    (hreader : readerAt h id = some (target, reader)) :
    ∃ place, Place id target place ∧ h.value id = some (place reader) := by
  unfold readerAt at hreader
  cases hvalue : h.value id with
  | none => simp [hvalue] at hreader
  | some node =>
      cases node with
      | log log other =>
          simp only [hvalue, Option.some.injEq, Prod.mk.injEq] at hreader
          obtain ⟨rfl, rfl⟩ := hreader
          exact ⟨_, .log log, rfl⟩
      | iterator data other =>
          simp only [hvalue, Option.some.injEq, Prod.mk.injEq] at hreader
          obtain ⟨rfl, rfl⟩ := hreader
          exact ⟨_, .iterator data, rfl⟩
      | profiler zLog => simp [hvalue] at hreader
      | entry zLog index => simp [hvalue] at hreader

theorem Place.of_reader (id : ℕ) {node : Node} {reader : Reader}
    (hnode : node.reader = some reader) :
    ∃ target place, Place id target place ∧ node = place reader := by
  cases node with
  | log log other => cases hnode; exact ⟨id, _, .log log, rfl⟩
  | iterator data other => cases hnode; exact ⟨data, _, .iterator data, rfl⟩
  | profiler zLog => cases hnode
  | entry zLog index => cases hnode

end Accessors

namespace Place

variable {h : Heap Node} {ext moving : List ℕ} {id target : ℕ} {place : Reader → Node}
  {reader : Reader}

theorem readerAt (hplace : Place id target place) (hvalue : h.value id = some (place reader)) :
    readerAt h id = some (target, reader) := by
  cases hplace with
  | log log => simp [ObjectStore.readerAt, hvalue]
  | iterator data => simp [ObjectStore.readerAt, hvalue]

theorem setReader (hplace : Place id target place) (hvalue : h.value id = some (place reader))
    (new : Reader) : setReader h id new = h.write id (place new) := by
  cases hplace with
  | log log => simp [ObjectStore.setReader, hvalue]
  | iterator data => simp [ObjectStore.setReader, hvalue]

theorem reader_eq (hplace : Place id target place) (reader : Reader) :
    (place reader).reader = some reader := by
  cases hplace <;> rfl

theorem grows (hplace : Place id target place) (reader new : Reader) :
    (place reader).Grows (place new) := by
  cases hplace with
  | log log => exact .log (.refl log)
  | iterator data => exact .iterator

theorem refs (hplace : Place id target place) (reader : Reader) :
    (place reader).refs = reader.refs ++ (place .start).refs := by
  cases hplace with
  | log log => simp [Node.refs, Reader.refs, Reader.start]
  | iterator data => simp [Node.refs, Reader.refs, Reader.start]

theorem log_of_target (hplace : Place id target place) (hinv : Inv h ext moving)
    (hvalue : h.value id = some (place reader)) :
    ∃ log other, h.value target = some (.log log other) := by
  cases hplace with
  | log log => exact ⟨log, reader, hvalue⟩
  | iterator data =>
      obtain ⟨found, hfound, hedge⟩ := hinv.target hvalue (r := target) (by simp [Node.refs])
      obtain ⟨log, other, rfl⟩ := hedge.1 rfl
      exact ⟨log, other, hfound⟩

/-- A reader keeps the log that it reads. -/
theorem keeps (hplace : Place id target place) (reader : Reader) :
    target = id ∨ target ∈ (place reader).refs := by
  cases hplace with
  | log log => exact Or.inl rfl
  | iterator data => exact Or.inr (by simp [Node.refs])

theorem wellFormed (hplace : Place id target place) (hinv : Inv h ext moving)
    (hvalue : h.value id = some (place reader)) (new : Reader) :
    ∀ log other, place new = .log log other → log.WellFormed := by
  intro log other heq
  cases hplace with
  | log same =>
      cases heq
      exact hinv.wellFormed _ _ _ hvalue
  | iterator data => cases heq

/-- The other references of a reader, and the entry at its index. -/
theorem out (hplace : Place id target place) (hinv : Inv h ext moving)
    (hvalue : h.value id = some (place reader)) (new : Reader)
    (hnew : ∀ e ∈ new.refs, h.value e = some (.entry target new.index)) :
    ∀ r ∈ (place new).refs, r ≠ id ∧
      ∃ found, h.value r = some found ∧ edge id (place new) r found := by
  intro r hr
  obtain ⟨log, other, hlog⟩ := hplace.log_of_target hinv hvalue
  cases hplace with
  | log same =>
      have hentry := hnew r hr
      refine ⟨?_, _, hentry, rfl⟩
      rintro rfl
      cases hentry.symm.trans hvalue
  | iterator data =>
      rcases List.mem_append.mp hr with hcurrent | hdata
      · have hentry := hnew r hcurrent
        refine ⟨?_, _, hentry, ?_, fun _ => rfl⟩
        · rintro rfl
          cases hentry.symm.trans hvalue
        · rintro rfl
          cases hentry.symm.trans hlog
      · obtain rfl := List.mem_singleton.mp hdata
        refine ⟨?_, _, hlog, fun _ => ⟨log, other, rfl⟩, ?_⟩
        · rintro rfl
          cases hlog.symm.trans hvalue
        · intro hcurrent
          cases (hnew _ hcurrent).symm.trans hlog

/-- The current entry of a reader. -/
theorem entry_of_refs (hplace : Place id target place) (hinv : Inv h ext moving)
    (hvalue : h.value id = some (place reader)) {e : ℕ} (he : e ∈ reader.refs) :
    h.value e = some (.entry target reader.index) := by
  have hmem : e ∈ (place reader).refs := by
    rw [hplace.refs reader]
    exact List.mem_append_left _ he
  obtain ⟨found, hfound, hedge⟩ := hinv.target hvalue hmem
  cases hplace with
  | log log => exact hfound.trans (congrArg some hedge)
  | iterator data => exact hfound.trans (congrArg some (hedge.2 he))

end Place

section Operations

variable {h : Heap Node} {ext moving : List ℕ} {id : ℕ}

/-- The objects that no other object refers to. -/
def Node.IsRoot : Node → Prop
  | .profiler _ | .iterator _ _ => True
  | .log _ _ | .entry _ _ => False

theorem Inv.not_root (hinv : Inv h ext moving) {a : ℕ} {node : Node}
    (hpoints : h.Points Node.refs a id) (hvalue : h.value id = some node) : ¬node.IsRoot := by
  obtain ⟨holder, ha, hr⟩ := hpoints
  obtain ⟨found, hfound, hedge⟩ := hinv.target ha hr
  obtain rfl := Option.some.inj (hvalue.symm.trans hfound)
  cases holder with
  | profiler zLog =>
      obtain ⟨log, reader, rfl⟩ := hedge
      exact not_false
  | log log reader =>
      obtain rfl : node = .entry a reader.index := hedge
      exact not_false
  | entry zLog index =>
      obtain ⟨log, reader, rfl, -⟩ := hedge
      exact not_false
  | iterator data reader =>
      rcases List.mem_append.mp hr with hcurrent | hdata
      · obtain rfl := hedge.2 hcurrent
        exact not_false
      · obtain ⟨log, other, rfl⟩ := hedge.1 (by simpa using hdata)
        exact not_false

theorem Inv.mem_of_root (hinv : Inv h ext moving) {node : Node} (hvalue : h.value id = some node)
    (hroot : node.IsRoot) : id ∈ ext := by
  obtain ⟨c, hcell, -⟩ := Heap.value_eq_some.mp hvalue
  have hcount := hinv.sound.counted id
  have hpos := hinv.sound.positive id c hcell
  have hheld : id ∉ h.held Node.refs := by
    intro hmem
    obtain ⟨a, holder, ha, hr⟩ := (Heap.mem_held Node.refs).mp hmem
    exact hinv.not_root ⟨holder, ha, hr⟩ hvalue hroot
  rw [Heap.count_of_cell hcell, List.count_eq_zero_of_not_mem hheld] at hcount
  exact List.count_pos_iff.mp (by omega)

theorem Inv.profiler_mem (hinv : Inv h ext moving) {zLog : ℕ}
    (hprofiler : profilerAt h id = some zLog) : id ∈ ext :=
  hinv.mem_of_root (profilerAt_eq.mp hprofiler) trivial

/-- A profiler to which there is a reference is still a profiler. -/
theorem Effect.profiler {next : Heap Node} {other moved : List ℕ}
    (heffect : Effect h ext next other moved) (hprofiler : (profilerAt h id).isSome)
    (hid : id ∈ other) : (profilerAt next id).isSome := by
  obtain ⟨zLog, hzLog⟩ := Option.isSome_iff_exists.mp hprofiler
  have hvalue := profilerAt_eq.mp hzLog
  obtain ⟨node, hnode⟩ := heffect.inv.value_of_mem hid
  obtain ⟨old, hold, hgrows⟩ := heffect.evolves.origin id node hnode (lt_fresh_of_value hvalue)
  obtain rfl := Option.some.inj (hvalue.symm.trans hold)
  cases hgrows with
  | profiler => exact Option.isSome_iff_exists.mpr ⟨_, profilerAt_eq.mpr hnode⟩

theorem Inv.allocLog (hinv : Inv h ext moving) {log : Log} (hwf : log.WellFormed) :
    Effect h ext (h.alloc (.log log .start)) (h.fresh :: ext) moving := by
  refine Inv.alloc (.log log .start) hinv (by simp [Node.refs, Reader.refs, Reader.start]) ?_ ?_
  · rintro _ _ ⟨⟩
    exact hwf
  · rintro _ ⟨⟩
    rfl

theorem Inv.profilerNew (hinv : Inv h ext moving) (defaultMaxDepth : Int) (now : UInt64) :
    Effect h ext (profilerNew h defaultMaxDepth now).1
      ((profilerNew h defaultMaxDepth now).2 :: ext) moving := by
  have hlog := hinv.allocLog ((Log.init_wellFormed Log.zero).of_table rfl rfl (by simp [Log.init]) :
    Log.WellFormed
      { Log.init Log.zero with maxDepth := defaultMaxDepth, epoch := now, period := 100000000 })
  refine hlog.trans (Inv.alloc (.profiler h.fresh) hlog.inv ?_ ?_ ?_)
  · intro r hr
    obtain rfl := List.mem_singleton.mp hr
    exact ⟨_, by rw [Heap.value_alloc, if_pos rfl], _, _, rfl⟩
  · rintro _ _ ⟨⟩
  · rintro _ ⟨⟩

/-- The log of a profiler. -/
theorem Inv.attachedLog (hinv : Inv h ext moving) {profiler zLog : ℕ}
    (hprofiler : profilerAt h profiler = some zLog) :
    ∃ log reader, h.value zLog = some (.log log reader) ∧ h.Known Node.refs ext zLog ∧
      attachedLog h profiler = some (zLog, log, reader) := by
  have hmem := List.mem_singleton_self zLog
  obtain ⟨found, hvalue, log, reader, rfl⟩ := hinv.target (profilerAt_eq.mp hprofiler) hmem
  refine ⟨log, reader, hvalue, ?_, ?_⟩
  · have hknown : h.Known Node.refs ext profiler := .of_mem (hinv.profiler_mem hprofiler)
    exact hknown.points ⟨_, profilerAt_eq.mp hprofiler, hmem⟩
  · simp [ObjectStore.attachedLog, hprofiler, logAt_eq.mpr hvalue]

theorem Inv.changeLog (hinv : Inv h ext moving) {profiler zLog : ℕ} (change : Log → Option Log)
    (hprofiler : profilerAt h profiler = some zLog)
    (hsome : (ObjectStore.attachedLog h profiler).all fun (_, log, _) => (change log).isSome)
    (hchange : ∀ log next, log.WellFormed → change log = some next →
      next.WellFormed ∧ Log.Grows log next) :
    ∃ next, changeLog h profiler change = some next ∧ Effect h ext next ext moving := by
  obtain ⟨log, reader, hvalue, hknown, hattached⟩ := hinv.attachedLog hprofiler
  rw [hattached, Option.all_some] at hsome
  obtain ⟨changed, hchanged⟩ := Option.isSome_iff_exists.mp hsome
  obtain ⟨hwf, hgrows⟩ := hchange log changed (hinv.wellFormed zLog log reader hvalue) hchanged
  have hwrite :=
    hinv.write hvalue hknown (.log changed reader) (.log hgrows) ?_ ?_ (.refl _) (Or.inl rfl)
  · simpa [ObjectStore.changeLog, hattached, hchanged] using hwrite
  · intro r hr
    obtain ⟨found, hfound, hedge⟩ := hinv.target hvalue hr
    refine ⟨?_, found, hfound, hedge⟩
    rintro rfl
    rw [hvalue] at hfound
    cases (Option.some.inj hfound).trans hedge
  · rintro log reader ⟨⟩
    exact hwf

theorem Inv.flush (hinv : Inv h ext moving) {profiler zLog : ℕ}
    (hprofiler : profilerAt h profiler = some zLog) :
    ∃ next, flush h profiler = some (next, zLog) ∧ Effect h ext next (zLog :: ext) moving := by
  obtain ⟨log, reader, hvalue, hknown, hattached⟩ := hinv.attachedLog hprofiler
  obtain ⟨copied, hcopied, -, -, -⟩ := hinv.addRef hvalue hknown
  have hmoved := Heap.delRef_addRef hcopied
  have hlog := hinv.allocLog ((Log.init_wellFormed Log.zero).of_table rfl rfl
    (by simp [Profiler.replacement, Log.init, Log.copyOptions]) :
      Log.WellFormed (Profiler.replacement log))
  have hlt := lt_fresh_of_value (profilerAt_eq.mp hprofiler)
  have hold : (h.alloc (.log (Profiler.replacement log) .start)).value profiler =
      some (.profiler zLog) := by
    rw [Heap.value_alloc, if_neg (Nat.ne_of_lt hlt)]
    exact profilerAt_eq.mp hprofiler
  have hwrite := hlog.inv.write hold
    (.of_mem (List.mem_cons_of_mem _ (hinv.profiler_mem hprofiler))) (.profiler h.fresh) .profiler
    ?_ ?_ (.swap zLog h.fresh ext) (Or.inl rfl)
  · obtain ⟨next, hnext, heffect⟩ := hwrite
    refine ⟨next, ?_, hlog.trans heffect⟩
    simp [ObjectStore.flush, hattached, hcopied, hmoved, hnext]
  · intro r hr
    obtain rfl := List.mem_singleton.mp hr
    exact ⟨Nat.ne_of_gt hlt, _, by rw [Heap.value_alloc, if_pos rfl], _, _, rfl⟩
  · rintro _ _ ⟨⟩

/-- The result of `ExcimerLog_init_entry` is null or a new object for the entry. -/
theorem Inv.initEntry (hinv : Inv h ext moving) {log : Log} {reader : Reader}
    (hlog : h.value id = some (.log log reader)) (hknown : h.Known Node.refs ext id) (index : Int) :
    ∃ made entry, initEntry h id index = some (made, entry) ∧
      Effect h ext made (entry.toList ++ ext) moving ∧
      (∀ e, entry = some e → made.value e = some (.entry id index)) ∧
      ∀ r node, h.value r = some node → made.value r = some node := by
  cases hentry : log.getEntry index with
  | none =>
      refine ⟨h, none, ?_, .refl hinv, by simp, fun _ _ hr => hr⟩
      simp [ObjectStore.initEntry, logAt_eq.mpr hlog, hentry]
  | some entry =>
      obtain ⟨held, hheld, heffect, hsame, hfresh⟩ := hinv.addRef hlog hknown
      have halloc := Inv.alloc (.entry id index) heffect.inv ?_ (by rintro _ _ ⟨⟩) (by rintro _ ⟨⟩)
      · refine ⟨held.alloc (.entry id index), some held.fresh, ?_, heffect.trans halloc, ?_, ?_⟩
        · simp [ObjectStore.initEntry, logAt_eq.mpr hlog, hentry, hheld]
        · rintro e ⟨⟩
          rw [Heap.value_alloc, if_pos rfl]
        · intro r node hr
          have hlt := lt_fresh_of_value hr
          rw [Heap.value_alloc, if_neg (by omega), hsame, hr]
      · intro r hr
        obtain rfl := List.mem_singleton.mp hr
        exact ⟨_, (hsame _).trans hlog, log, reader, rfl, by rw [hentry]; rfl⟩

theorem Inv.getIterator (hinv : Inv h ext moving) {log : Log} {reader : Reader}
    (hlog : h.value id = some (.log log reader)) (hknown : h.Known Node.refs ext id) :
    ∃ next iterator, getIterator h id = some (next, iterator) ∧
      Effect h ext next (iterator :: ext) moving := by
  obtain ⟨held, hheld, heffect, hsame, -⟩ := hinv.addRef hlog hknown
  have halloc := Inv.alloc (.iterator id .start) heffect.inv ?_ (by rintro _ _ ⟨⟩)
    (by rintro _ ⟨⟩; rfl)
  · exact ⟨_, _, by simp [ObjectStore.getIterator, hheld], heffect.trans halloc⟩
  · intro r hr
    obtain rfl : r = id := by simpa [Node.refs, Reader.refs, Reader.start] using hr
    exact ⟨_, (hsame _).trans hlog, fun _ => ⟨log, reader, rfl⟩,
      by simp [Reader.refs, Reader.start]⟩

/-- A reader that is not in the middle of a move is not stale. -/
theorem Inv.not_stale (hinv : Inv h ext moving) (hidle : id ∉ moving) {target : ℕ}
    {place : Reader → Node} (hplace : Place id target place) {reader : Reader}
    (hvalue : h.value id = some (place reader)) : reader.stale = false := by
  have hiff := hinv.marked.stale id _ hvalue
  refine Bool.eq_false_iff.mpr fun hstale => hidle (hiff.mpr ?_)
  exact ⟨reader, hplace.reader_eq reader, hstale⟩

/-- In the middle of a move `z_current` refers to freed memory. -/
theorem Inv.dangling (hinv : Inv h ext moving) (hmoving : id ∈ moving) {target : ℕ}
    {reader : Reader} (hreader : readerAt h id = some (target, reader)) :
    ∃ e, reader.zCurrent = some e ∧ h.cell e = none := by
  obtain ⟨place, hplace, hvalue⟩ := Place.of_readerAt hreader
  obtain ⟨found, hfound, hstale⟩ := (hinv.marked.stale id _ hvalue).mp hmoving
  obtain rfl := Option.some.inj ((hplace.reader_eq reader).symm.trans hfound)
  obtain ⟨e, hcurrent, -, hnone⟩ := hinv.marked.freed id _ reader hvalue hfound hstale
  exact ⟨e, hcurrent, Option.map_eq_none_iff.mp hnone⟩

theorem Inv.loadCurrent (hinv : Inv h ext moving) (hid : id ∈ ext) (hidle : id ∉ moving)
    {target : ℕ} {reader : Reader} (hreader : readerAt h id = some (target, reader)) :
    ∃ next value, loadCurrent h id = some (next, value) ∧ Effect h ext next ext moving ∧
      ∀ e, value = some e → ∃ node, next.value e = some node ∧ next.Known Node.refs ext e := by
  obtain ⟨place, hplace, hvalue⟩ := Place.of_readerAt hreader
  obtain ⟨log, other, hlog⟩ := hplace.log_of_target hinv hvalue
  have hfresh := hinv.not_stale hidle hplace hvalue
  by_cases hload : reader.zCurrent = none ∧ reader.index < log.getSize
  · have hknown : h.Known Node.refs ext target := by
      rcases hplace.keeps reader with rfl | hkept
      · exact .of_mem hid
      · exact (Heap.Known.of_mem hid).points ⟨_, hvalue, hkept⟩
    obtain ⟨made, entry, hmade, heffect, hentry, hkept⟩ := hinv.initEntry hlog hknown reader.index
    have hstill := hkept id _ hvalue
    have hnew : ({ reader with zCurrent := entry } : Reader).refs = entry.toList := by
      simp [Reader.refs, hfresh]
    have hout := hplace.out heffect.inv hstill { reader with zCurrent := entry }
      (by rw [hnew]; intro e he; exact hentry e (by simpa using he))
    have hrefs : ((place { reader with zCurrent := entry }).refs ++ ext).Perm
        ((place reader).refs ++ (entry.toList ++ ext)) := by
      have hold : reader.refs = [] := by simp [Reader.refs, hload.1]
      rw [hplace.refs { reader with zCurrent := entry }, hplace.refs reader, hnew, hold,
        List.append_assoc]
      exact List.perm_append_comm_assoc _ _ _
    obtain ⟨next, hwrite, hwritten⟩ := heffect.inv.write hstill
      (.of_mem (List.mem_append_right _ hid)) (place { reader with zCurrent := entry })
      (hplace.grows _ _) hout (hplace.wellFormed heffect.inv hstill _) hrefs
      (Or.inr ⟨hidle, fun new hnode => by
        obtain rfl := Option.some.inj ((hplace.reader_eq _).symm.trans hnode)
        exact hfresh⟩)
    refine ⟨next, entry, ?_, heffect.trans hwritten, ?_⟩
    · simp [ObjectStore.loadCurrent, hreader, logAt_eq.mpr hlog, hload, hmade,
        hplace.setReader hstill, hwrite]
    · intro e he
      have hmem : e ∈ (place { reader with zCurrent := entry }).refs := by
        rw [hplace.refs { reader with zCurrent := entry }, hnew]
        simp [he]
      refine ⟨_, by rw [Heap.value_write hwrite, if_neg (hout e hmem).1, hentry e he], ?_⟩
      refine (Heap.Known.of_mem hid).points ⟨_, ?_, hmem⟩
      rw [Heap.value_write hwrite, if_pos rfl]
  · refine ⟨h, reader.zCurrent, ?_, .refl hinv, ?_⟩
    · simp [ObjectStore.loadCurrent, hreader, logAt_eq.mpr hlog, hload]
    · intro e he
      have hmem : e ∈ (place reader).refs := by
        rw [hplace.refs reader]
        simp [Reader.refs, hfresh, he]
      obtain ⟨found, hfound, -⟩ := hinv.target hvalue hmem
      exact ⟨found, hfound, (Heap.Known.of_mem hid).points ⟨_, hvalue, hmem⟩⟩

/-- The cached entry is given up, and `z_current` is cleared afterwards. For the counts
it might as well be cleared first. -/
theorem Inv.giveUp (hinv : Inv h ext moving) (hid : id ∈ ext) (hidle : id ∉ moving) {target : ℕ}
    {place : Reader → Node} (hplace : Place id target place) {reader : Reader}
    (hvalue : h.value id = some (place reader)) :
    ∃ released rest, zvalPtrDtor h reader.zCurrent = some (released, rest) ∧
      released.value id = some (place reader) ∧ released.value target = h.value target ∧
      ∀ index, ∃ cleared, released.write id (place ⟨index, none, false⟩) = some cleared ∧
        Effect h ext cleared (rest ++ ext) moving := by
  obtain ⟨log, other, hlog⟩ := hplace.log_of_target hinv hvalue
  have hfresh := hinv.not_stale hidle hplace hvalue
  have hcleared (index : Int) (other : List ℕ) (hperm : other.Perm (reader.refs ++ ext)) :
      ∃ cleared, h.write id (place ⟨index, none, false⟩) = some cleared ∧
        Effect h ext cleared other moving := by
    refine hinv.write hvalue (.of_mem hid) _ (hplace.grows _ _)
      (hplace.out hinv hvalue _ (by simp [Reader.refs])) (hplace.wellFormed hinv hvalue _) ?_
      (Or.inr ⟨hidle, fun new hnode => ?_⟩)
    · have hnew : (place ⟨index, none, false⟩).refs = (place .start).refs := hplace.refs _
      rw [hnew, hplace.refs reader, List.append_assoc]
      exact (hperm.append_left _).trans (List.perm_append_comm_assoc _ _ _)
    · obtain rfl := Option.some.inj ((hplace.reader_eq _).symm.trans hnode)
      rfl
  cases hcurrent : reader.zCurrent with
  | none =>
      have hold : reader.refs = [] := by simp [Reader.refs, hcurrent]
      exact ⟨h, [], rfl, hvalue, rfl,
        fun index => hcleared index ext (by rw [hold, List.nil_append])⟩
  | some e =>
      have hold : reader.refs = [e] := by simp [Reader.refs, hfresh, hcurrent]
      have hentry := hplace.entry_of_refs hinv hvalue (e := e) (by simp [hold])
      have hne : id ≠ e := by
        rintro rfl
        have hsame := Option.some.inj (hvalue.symm.trans hentry)
        cases hplace <;> cases hsame
      obtain ⟨d, hleft, -⟩ := Heap.value_eq_some.mp hentry
      obtain ⟨⟨released, rest⟩, hunref⟩ : ∃ after, h.unref Node.refs e = some after :=
        ⟨_, by rw [Heap.unref, hleft, Option.map_some]⟩
      refine ⟨released, rest, hunref, ?_, ?_, fun index => ?_⟩
      · rw [Heap.unref_value hunref hne, hvalue]
      · refine Heap.unref_value hunref ?_
        rintro rfl
        cases hentry.symm.trans hlog
      · obtain ⟨mid, hwrite, heffect⟩ := hcleared index (e :: ext) (by rw [hold]; exact .refl _)
        obtain ⟨cleared, hnext, hlater⟩ := Heap.unref_write hunref hwrite hne
        obtain ⟨found, left, hfound, hgiven⟩ := heffect.inv.unref
        obtain ⟨rfl, rfl⟩ := Prod.mk.inj (Option.some.inj (hlater.symm.trans hfound))
        exact ⟨cleared, hnext, heffect.trans hgiven⟩

/-- The rest of a move, with the log that it reads. -/
theorem Place.clearCurrent {target : ℕ} {place : Reader → Node} (hplace : Place id target place)
    {reader : Reader} (hvalue : h.value id = some (place reader)) {log : Log} {other : Reader}
    (hlog : h.value target = some (.log log other)) (move : Move) :
    ∃ index, clearCurrent h id move = h.write id (place ⟨index, none, false⟩) := by
  cases move with
  | next =>
      refine ⟨if reader.index < log.getSize then reader.index + 1 else reader.index, ?_⟩
      simp [ObjectStore.clearCurrent, hplace.readerAt hvalue, logAt_eq.mpr hlog,
        hplace.setReader hvalue]
  | rewind =>
      exact ⟨0, by
        simp [ObjectStore.clearCurrent, hplace.readerAt hvalue, hplace.setReader hvalue]⟩
  | invalidateCurrent =>
      exact ⟨reader.index, by
        simp [ObjectStore.clearCurrent, hplace.readerAt hvalue, hplace.setReader hvalue]⟩

/-- A reader without a reference to an entry begins or ends a move. -/
theorem Place.mark {target : ℕ} {place : Reader → Node} (hplace : Place id target place)
    (hinv : Inv h ext moving) (hid : id ∈ ext) {reader : Reader}
    (hvalue : h.value id = some (place reader)) (hold : reader.refs = []) (new : Reader)
    (hnew : new.refs = []) (moved : List ℕ)
    (hothers : ∀ other, other ≠ id → (other ∈ moved ↔ other ∈ moving))
    (hself : id ∈ moved ↔ new.stale = true)
    (hfreed : new.stale = true → ∃ e, new.zCurrent = some e ∧ e < h.fresh ∧ h.value e = none) :
    ∃ next, h.write id (place new) = some next ∧ next.value id = some (place new) ∧
      Effect h ext next ext moved := by
  obtain ⟨c, hcell, hnode⟩ := Heap.value_eq_some.mp hvalue
  have hwrite : h.write id (place new) = some (h.put id (some { c with value := place new })) := by
    rw [Heap.write, hcell, Option.map_some]
  have hgrows : c.value.Grows (place new) := hnode ▸ hplace.grows _ _
  refine ⟨_, hwrite, by rw [Heap.value_write hwrite, if_pos rfl],
    hinv.put hcell (.of_mem hid) hgrows (hplace.out hinv hvalue new (by simp [hnew]))
      (hplace.wellFormed hinv hvalue new) ?_ (hinv.marked.put hcell hothers ?_ ?_)⟩
  · rw [hnode, hplace.refs reader, hplace.refs new, hold, hnew]
  · simpa [hplace.reader_eq] using hself
  · intro found hfound
    obtain rfl := Option.some.inj ((hplace.reader_eq new).symm.trans hfound)
    exact hfreed

/-- A move is over, or the entry is freed and the reader is in the middle of it. -/
theorem Inv.moveReader (hinv : Inv h ext moving) (hid : id ∈ ext) (hidle : id ∉ moving)
    {target : ℕ} {reader : Reader} (hreader : readerAt h id = some (target, reader))
    (move : Move) :
    (∃ next, moveReader h id move = some (next, []) ∧ Effect h ext next ext moving) ∨
      ∃ next rest, moveReader h id move = some (next, rest.map .release ++ [.clear id move]) ∧
        Effect h ext next (id :: (rest ++ ext)) (id :: moving) := by
  obtain ⟨place, hplace, hvalue⟩ := Place.of_readerAt hreader
  obtain ⟨log, other, hlog⟩ := hplace.log_of_target hinv hvalue
  obtain ⟨released, rest, hreleased, hstill, htarget, hcleared⟩ :=
    hinv.giveUp hid hidle hplace hvalue
  by_cases hfreed : reader.zCurrent.any fun entry => (released.value entry).isNone
  · right
    obtain ⟨e, hcurrent, hnone⟩ := (Option.any_eq_true _ _).mp hfreed
    have hlive := hinv.not_stale hidle hplace hvalue
    have hentry := hplace.entry_of_refs hinv hvalue (e := e)
      (by simp [Reader.refs, hlive, hcurrent])
    have hgone := Option.isNone_iff_eq_none.mp hnone
    have hne : e ≠ id := by
      rintro rfl
      cases hgone.symm.trans hstill
    obtain ⟨cleared, hwrite, heffect⟩ := hcleared reader.index
    have hblank : cleared.value id = some (place ⟨reader.index, none, false⟩) := by
      rw [Heap.value_write hwrite, if_pos rfl]
    have hdangling : ∃ e, reader.zCurrent = some e ∧ e < cleared.fresh ∧ cleared.value e = none :=
      ⟨e, hcurrent, Nat.lt_of_lt_of_le (lt_fresh_of_value hentry) heffect.evolves.fresh_le,
        by rw [Heap.value_write hwrite, if_neg hne, hgone]⟩
    -- the reader is marked instead of cleared
    obtain ⟨marked, hmarked, hplaced, hmark⟩ := hplace.mark heffect.inv
      (List.mem_append_right _ hid) hblank rfl { reader with stale := true } rfl (id :: moving)
      (fun other hother => by simp [hother]) (by simp) (fun _ => hdangling)
    obtain ⟨next, hnext, hkept, -, -⟩ :=
      hmark.inv.addRef hplaced (.of_mem (List.mem_append_right _ hid))
    refine ⟨next, rest, ?_, (heffect.trans hmark).trans hkept⟩
    rw [Heap.write_write hwrite, ← hplace.setReader hstill] at hmarked
    simp [ObjectStore.moveReader, hreader, hreleased, hfreed, hmarked, hnext]
  · left
    have hrest : rest = [] := by
      cases hcurrent : reader.zCurrent with
      | none =>
          rw [hcurrent] at hreleased
          cases hreleased
          rfl
      | some e =>
          rw [hcurrent] at hreleased hfreed
          exact Heap.unref_rest hreleased (by simpa using hfreed)
    obtain ⟨index, hclear⟩ := hplace.clearCurrent hstill (htarget.trans hlog) move
    obtain ⟨cleared, hwrite, heffect⟩ := hcleared index
    refine ⟨cleared, ?_, by simpa [hrest] using heffect⟩
    simp [ObjectStore.moveReader, hreader, hreleased, hfreed, hclear, hwrite]

/-- The end of a move. -/
theorem Inv.clearCurrent (hinv : Inv h ext (id :: moving)) (hid : id ∈ ext) (hover : id ∉ moving)
    (move : Move) :
    ∃ next, clearCurrent h id move = some next ∧ Effect h ext next ext moving := by
  obtain ⟨node, hnode⟩ := hinv.value_of_mem hid
  obtain ⟨reader, hreader, hstale⟩ :=
    (hinv.marked.stale id node hnode).mp (List.mem_cons_self ..)
  obtain ⟨target, place, hplace, rfl⟩ := Place.of_reader id hreader
  obtain ⟨log, other, hlog⟩ := hplace.log_of_target hinv hnode
  obtain ⟨index, hclear⟩ := hplace.clearCurrent hnode hlog move
  obtain ⟨next, hnext, -, heffect⟩ := hplace.mark hinv hid hnode
    (by simp [Reader.refs, hstale]) ⟨index, none, false⟩ rfl moving
    (fun other hother => by simp [hother]) (by simp [hover]) (by simp)
  exact ⟨next, hclear.trans hnext, heffect⟩

theorem Inv.offsetGet (hinv : Inv h ext moving) {log : Log} {reader : Reader}
    (hlog : h.value id = some (.log log reader)) (hknown : h.Known Node.refs ext id)
    (offset : Int) :
    ∃ next value, offsetGet h id offset = some (next, value) ∧
      Effect h ext next (value.toList ++ ext) moving := by
  obtain ⟨made, entry, hmade, heffect, -, -⟩ := hinv.initEntry hlog hknown offset
  by_cases hout : offset < 0 ∨ offset ≥ log.getSize
  · exact ⟨h, none, by simp [ObjectStore.offsetGet, logAt_eq.mpr hlog, hout], .refl hinv⟩
  · refine ⟨made, entry, ?_, heffect⟩
    simp only [ObjectStore.offsetGet, logAt_eq.mpr hlog, Option.bind_some, if_neg hout, hmade]

theorem Inv.zvalCopy (hinv : Inv h ext moving) (value : Option ℕ)
    (hvalue : ∀ e, value = some e → ∃ node, h.value e = some node ∧ h.Known Node.refs ext e) :
    ∃ next, zvalCopy h value = some next ∧ Effect h ext next (value.toList ++ ext) moving := by
  cases value with
  | none => exact ⟨h, rfl, .refl hinv⟩
  | some e =>
      obtain ⟨node, hnode, hknown⟩ := hvalue e rfl
      obtain ⟨next, hnext, heffect, -, -⟩ := hinv.addRef hnode hknown
      exact ⟨next, hnext, heffect⟩

/-- The entry that an entry object stands for. -/
theorem Inv.entry (hinv : Inv h ext moving) {zLog : ℕ} {index : Int}
    (hentry : h.value id = some (.entry zLog index)) :
    ∃ log reader entry chain, h.value zLog = some (.log log reader) ∧
      log.getEntry index = some entry ∧ log.Path entry.frameIndex.toNat chain ∧
      chain.length ≤ log.frames.length := by
  obtain ⟨found, hfound, log, reader, rfl, hsome⟩ :=
    hinv.target hentry (List.mem_singleton_self zLog)
  obtain ⟨entry, hget⟩ := Option.isSome_iff_exists.mp hsome
  have hwf := hinv.wellFormed zLog log reader hfound
  obtain ⟨-, hstored⟩ := Option.ite_none_right_eq_some.mp hget
  have hlt := hwf.entry_lt entry (List.mem_of_getElem? hstored)
  obtain ⟨chain, hchain, hlength⟩ := hwf.path (Nat.le_refl _) hlt
  exact ⟨log, reader, entry, chain, hfound, hget, hchain, hlength⟩

theorem readEntry_eq {zLog : ℕ} {index : Int} (hvalue : h.value id = some (.entry zLog index))
    {log : Log} {reader : Reader} (hlog : h.value zLog = some (.log log reader)) {entry : Log.Entry}
    (hget : log.getEntry index = some entry) {chain : List (Nat × Log.Frame)}
    (hchain : log.Path entry.frameIndex.toNat chain) (hlength : chain.length ≤ log.frames.length) :
    readEntry h id = some ⟨entry.timestamp - log.epoch, entry.eventCount,
      chain.map fun link => Log.frameToArray link.2⟩ := by
  simp [ObjectStore.readEntry, entryAt_eq.mpr hvalue, logAt_eq.mpr hlog, hget,
    Log.traceToArray_eq hchain hlength]

/-- In the middle of a move another move would release the entry once more. -/
theorem Inv.moveReader_eq_none (hinv : Inv h ext moving) (hmoving : id ∈ moving) {target : ℕ}
    {reader : Reader} (hreader : readerAt h id = some (target, reader)) (move : Move) :
    ObjectStore.moveReader h id move = none := by
  obtain ⟨e, hcurrent, hfreed⟩ := hinv.dangling hmoving hreader
  simp [ObjectStore.moveReader, hreader, hcurrent, zvalPtrDtor, Heap.unref, hfreed]

/-- In the middle of a move the current entry cannot be copied. -/
theorem Inv.current_eq_none (hinv : Inv h ext moving) (hmoving : id ∈ moving) {target : ℕ}
    {reader : Reader} (hreader : readerAt h id = some (target, reader)) :
    ∃ e, ObjectStore.loadCurrent h id = some (h, some e) ∧
      ObjectStore.zvalCopy h (some e) = none := by
  obtain ⟨e, hcurrent, hfreed⟩ := hinv.dangling hmoving hreader
  obtain ⟨place, hplace, hvalue⟩ := Place.of_readerAt hreader
  obtain ⟨log, other, hlog⟩ := hplace.log_of_target hinv hvalue
  refine ⟨e, ?_, ?_⟩
  · simp [ObjectStore.loadCurrent, hreader, logAt_eq.mpr hlog, hcurrent]
  · simp [ObjectStore.zvalCopy, Heap.addRef, hfreed]

end Operations

end ObjectStore

end Excimer
