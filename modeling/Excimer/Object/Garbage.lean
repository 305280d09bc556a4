import Excimer.Object.Safety

/-!
What is never freed. The classes have no `get_gc` handler, so the cycle collector of
PHP does not see the references that `z_log`, `z_current` and the `data` of an
iterator hold, and it cannot free what these references keep. A log and the entry in
its `z_current` hold each other. Among the objects of the extension this is the only
cycle: when the last other reference to the two of them goes, they stay for the rest
of the request.

Other references to an object can be out of the reach of PHP code as well, such as
those of a closure that only `z_callback` of a profiler keeps, or of a dynamic
property. They count as references from outside here.
-/

namespace Excimer.ObjectStore

open CountedHeap

section Lost

variable {h : Heap Node} {ext moving : List ℕ} {id : ℕ} {node : Node}

/-- A log and its current entry without any other reference to one of them. -/
structure Lost (h : Heap Node) (log entry : ℕ) : Prop where
  reader : ∃ backend index, h.value log = some (.log backend ⟨index, some entry, false⟩) ∧
    h.value entry = some (.entry log index)
  log_count : h.count log = 1
  entry_count : h.count entry = 1

theorem unreached_of_points {a : ℕ} (hpoints : h.Points Node.refs a id)
    (hout : ¬h.Reached Node.refs ext id) : ¬h.Reached Node.refs ext a :=
  fun ⟨root, hroot, hpath⟩ => hout ⟨root, hroot, hpath.tail hpoints⟩

/-- The holder of an object that is out of reach is the log with this current entry
or an entry of this log. -/
theorem Inv.unreached_holder (hinv : Inv h ext moving) (hvalue : h.value id = some node)
    (hout : ¬h.Reached Node.refs ext id) {a : ℕ} (hpoints : h.Points Node.refs a id) :
    (∃ backend index, h.value a = some (.log backend ⟨index, some id, false⟩) ∧
      node = .entry a index) ∨
      ∃ backend reader index, h.value a = some (.entry id index) ∧ node = .log backend reader := by
  have haway := unreached_of_points hpoints hout
  obtain ⟨holder, ha, hr⟩ := hpoints
  have hroot : ¬holder.IsRoot := fun hroot =>
    haway ⟨a, hinv.mem_of_root ha hroot, .refl⟩
  obtain ⟨found, hfound, hedge⟩ := hinv.target ha hr
  obtain rfl := Option.some.inj (hvalue.symm.trans hfound)
  cases holder with
  | profiler zLog => exact absurd trivial hroot
  | iterator data reader => exact absurd trivial hroot
  | log backend reader =>
      obtain ⟨index, zCurrent, stale⟩ := reader
      obtain ⟨rfl, rfl⟩ : stale = false ∧ zCurrent = some id := by
        simpa [Node.refs, Reader.refs] using hr
      exact Or.inl ⟨backend, index, ha, hedge⟩
  | entry zLog index =>
      obtain rfl : id = zLog := by simpa [Node.refs] using hr
      obtain ⟨backend, reader, hnode, -⟩ := hedge
      exact Or.inr ⟨backend, reader, index, ha, hnode⟩

/-- An entry that is out of reach is the current entry of its log. -/
theorem Inv.unreached_entry (hinv : Inv h ext moving) {zLog : ℕ} {index : Int}
    (hvalue : h.value id = some (.entry zLog index)) (hout : ¬h.Reached Node.refs ext id) :
    (∃ backend, h.value zLog = some (.log backend ⟨index, some id, false⟩)) ∧
      ¬h.Reached Node.refs ext zLog := by
  obtain ⟨c, hcell, -⟩ := Heap.value_eq_some.mp hvalue
  obtain ⟨a, hpoints, haway⟩ := hinv.sound.unreached_held hcell hout
  rcases hinv.unreached_holder hvalue hout hpoints with ⟨backend, i, ha, hnode⟩ |
    ⟨backend, reader, i, ha, hnode⟩
  · cases hnode
    exact ⟨⟨backend, ha⟩, haway⟩
  · cases hnode

/-- A log that is out of reach is held by an entry of it. -/
theorem Inv.unreached_log (hinv : Inv h ext moving) {backend : Log} {reader : Reader}
    (hvalue : h.value id = some (.log backend reader)) (hout : ¬h.Reached Node.refs ext id) :
    ∃ entry index, h.value entry = some (.entry id index) ∧ ¬h.Reached Node.refs ext entry := by
  obtain ⟨c, hcell, -⟩ := Heap.value_eq_some.mp hvalue
  obtain ⟨a, hpoints, haway⟩ := hinv.sound.unreached_held hcell hout
  rcases hinv.unreached_holder hvalue hout hpoints with ⟨_, i, ha, hnode⟩ | ⟨_, _, i, ha, hnode⟩
  · cases hnode
  · exact ⟨a, i, ha, haway⟩

/-- A single holder outside of the reach of PHP code has the only reference. -/
theorem Inv.count_unreached (hinv : Inv h ext moving) (hout : ¬h.Reached Node.refs ext id) {a : ℕ}
    {holder : Node} (ha : h.value a = some holder) (hrefs : holder.refs = [id])
    (honly : ∀ b, h.Points Node.refs b id → b = a) : h.count id = 1 := by
  have hmem : id ∉ ext := fun hmem => hout ⟨id, hmem, .refl⟩
  rw [hinv.sound.counted, List.count_eq_zero_of_not_mem hmem, Heap.count_held_eq ha honly, hrefs,
    List.count_singleton_self]

theorem Inv.lost (hinv : Inv h ext moving) {log entry : ℕ} {index : Int}
    (hentry : h.value entry = some (.entry log index)) (hout : ¬h.Reached Node.refs ext entry) :
    Lost h log entry := by
  obtain ⟨⟨backend, hlog⟩, haway⟩ := hinv.unreached_entry hentry hout
  refine ⟨⟨backend, index, hlog, hentry⟩, ?_, ?_⟩
  · refine hinv.count_unreached haway hentry rfl fun b hpoints => ?_
    rcases hinv.unreached_holder hlog haway hpoints with ⟨_, i, hb, hnode⟩ | ⟨_, _, i, hb, -⟩
    · cases hnode
    · -- an entry of the log that nobody else holds is its current entry
      obtain ⟨⟨other, hother⟩, -⟩ :=
        hinv.unreached_entry hb (unreached_of_points hpoints haway)
      cases hother.symm.trans hlog
      rfl
  · refine hinv.count_unreached hout hlog rfl fun b hpoints => ?_
    rcases hinv.unreached_holder hentry hout hpoints with ⟨_, i, hb, hnode⟩ | ⟨_, _, i, hb, hnode⟩
    · cases hnode
      rfl
    · cases hnode

theorem Lost.unreached {log entry : ℕ} (hlost : Lost h log entry) (hinv : Inv h ext moving) :
    ¬h.Reached Node.refs ext log ∧ ¬h.Reached Node.refs ext entry := by
  obtain ⟨backend, index, hlog, hentry⟩ := hlost.reader
  have hto : h.Points Node.refs log entry := ⟨_, hlog, by simp [Node.refs, Reader.refs]⟩
  have hfrom : h.Points Node.refs entry log := ⟨_, hentry, by simp [Node.refs]⟩
  exact ⟨hinv.sound.cycle_unreached hto hfrom hlost.log_count hlost.entry_count,
    hinv.sound.cycle_unreached hfrom hto hlost.entry_count hlost.log_count⟩

end Lost

variable {s t : State} {id : ℕ}

/-- The objects to which no reference from outside leads are the logs and entries that
hold each other and are held by nobody else. -/
theorem unreached_iff_lost (hreach : Reachable s) (halive : (s.heap.value id).isSome) :
    ¬s.heap.Reached Node.refs s.outside id ↔
      ∃ log entry, (id = log ∨ id = entry) ∧ Lost s.heap log entry := by
  have hinv := (reachable_consistent hreach).heap
  obtain ⟨node, hvalue⟩ := Option.isSome_iff_exists.mp halive
  constructor
  · intro hout
    cases node with
    | profiler zLog => exact absurd ⟨id, hinv.mem_of_root hvalue trivial, .refl⟩ hout
    | iterator data reader => exact absurd ⟨id, hinv.mem_of_root hvalue trivial, .refl⟩ hout
    | entry zLog index => exact ⟨zLog, id, Or.inr rfl, hinv.lost hvalue hout⟩
    | log backend reader =>
        obtain ⟨entry, index, hentry, haway⟩ := hinv.unreached_log hvalue hout
        exact ⟨id, entry, Or.inl rfl, hinv.lost hentry haway⟩
  · rintro ⟨log, entry, hid, hlost⟩
    obtain ⟨hlog, hentry⟩ := hlost.unreached hinv
    rcases hid with rfl | rfl
    · exact hlog
    · exact hentry

/-- PHP code reads the current entry of a log, and then it rotates the log out and
gives up its references. -/
def losesLog : List Action :=
  [.newProfiler 0 5, .sample 1 [] 2 10, .getLog 1, .current 0, .drop 2, .drop 0, .flush 1 true,
    .drop 0]

theorem losesLog_run :
    ∃ s, Transition.run step .initial losesLog = some s ∧ s.vars = [1] ∧ Lost s.heap 0 2 := by
  obtain ⟨s, hrun, hcheck⟩ := Transition.run_check step .initial losesLog
    (fun s => s.vars == [1] && (logAt s.heap 0).any (fun found => found.2 == ⟨0, some 2, false⟩) &&
      entryAt s.heap 2 == some (0, 0) && s.heap.count 0 == 1 && s.heap.count 2 == 1) (by decide)
  simp only [Bool.and_eq_true, beq_iff_eq, Option.any_eq_true] at hcheck
  obtain ⟨⟨⟨⟨hvars, ⟨log, reader⟩, hlog, hreader⟩, hentry⟩, hcount⟩, hcount'⟩ := hcheck
  obtain rfl : reader = ⟨0, some 2, false⟩ := hreader
  exact ⟨s, hrun, hvars, ⟨log, 0, logAt_eq.mp hlog, entryAt_eq.mp hentry⟩, hcount, hcount'⟩

theorem unreached_iff_lost_losesLog :
    ∃ s, Transition.run step .initial losesLog = some s ∧ s.vars = [1] ∧
      (s.heap.value 0).isSome ∧ ¬s.heap.Reached Node.refs s.outside 0 := by
  obtain ⟨s, hrun, hvars, hlost⟩ := losesLog_run
  obtain ⟨backend, index, hlog, -⟩ := hlost.reader
  have halive : (s.heap.value 0).isSome := by rw [hlog]; rfl
  have hiff := unreached_iff_lost ⟨.initial, losesLog, rfl, hrun⟩ halive
  exact ⟨s, hrun, hvars, halive, hiff.mpr ⟨0, 2, Or.inl rfl, hlost⟩⟩

/-- With a call of `rewind` the same references free the log. -/
example : (Transition.run step .initial
    [.newProfiler 0 5, .sample 1 [] 2 10, .getLog 1, .current 0, .drop 2, .rewind 0, .resume,
      .resume, .resume, .drop 0, .flush 1 true, .drop 0]).any
    (fun s => (s.heap.value 0).isNone && (s.heap.value 2).isNone) = true := by decide

end Excimer.ObjectStore
