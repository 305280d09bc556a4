import Excimer.Lib.ParentChain
import Excimer.Log.Basic

/-!
The frame table of a log. `WellFormed` is the representation invariant: every
caller comes before its callee, and `reverse_frames` pairs the keys with the
indexes from 1 on. `Extends` says how the table of a log may change: frames and
keys are added at the end and nothing else happens to it.
-/

namespace Excimer.Log

open ParentChain

/-- The key that a frame is stored under. -/
inductive KeyOf : Bytes → Frame → Prop
  | marker : KeyOf truncatedName truncationFrame
  | user {frame : Frame} {filename : Bytes} (hname : frame.filename = some filename) :
      KeyOf (frameKey filename frame.lineno frame.prevIndex) frame

/-- The representation invariant. The last three fields say that
`reverse_frames` is a bijection from its keys to the indexes of the frames,
the reserved one excepted. -/
structure WellFormed (log : Log) : Prop where
  reserved : log.frames[0]? = some Frame.zero
  prev_lt : ∀ i frame, i ≠ 0 → log.frames[i]? = some frame → frame.prevIndex.toNat < i
  entry_lt : ∀ entry ∈ log.entries, entry.frameIndex.toNat < log.frames.length
  key_index : ∀ key i, log.reverseFrames.find key = some i →
    i ≠ 0 ∧ ∃ frame, log.frames[i]? = some frame ∧ KeyOf key frame
  key_unique : ∀ key other i, log.reverseFrames.find key = some i →
    log.reverseFrames.find other = some i → key = other
  key_exists : ∀ i, i ≠ 0 → i < log.frames.length → ∃ key, log.reverseFrames.find key = some i

/-- The table of the second log starts with that of the first. -/
structure Extends (log next : Log) : Prop where
  frames : log.frames <+: next.frames
  find : ∀ {key i}, log.reverseFrames.find key = some i → next.reverseFrames.find key = some i
  find_old : ∀ {key i}, next.reverseFrames.find key = some i → i < log.frames.length →
    log.reverseFrames.find key = some i

section Keys

theorem toInt_inj {a b : UInt32} (heq : a.toInt32.toInt = b.toInt32.toInt) : a = b :=
  congrArg Int32.toUInt32 (Int32.toInt_inj.mp heq)

/-- The key determines what it was made from, whatever bytes a filename has. -/
theorem frameKey_inj {filename filename' : Bytes} {lineno lineno' prev prev' : UInt32}
    (heq : frameKey filename lineno prev = frameKey filename' lineno' prev') :
    filename = filename' ∧ lineno = lineno' ∧ prev = prev' := by
  obtain ⟨hfront, hprev⟩ := Bytes.append_sep_inj (Bytes.nul_notMem_decimal _)
    (Bytes.nul_notMem_decimal _) heq
  obtain ⟨hname, hline⟩ := Bytes.append_sep_inj (Bytes.nul_notMem_decimal _)
    (Bytes.nul_notMem_decimal _) hfront
  exact ⟨hname, toInt_inj (Bytes.decimal_injective hline),
    toInt_inj (Bytes.decimal_injective hprev)⟩

theorem frameKey_ne_truncatedName (filename : Bytes) (lineno prev : UInt32) :
    frameKey filename lineno prev ≠ truncatedName := by
  intro heq
  have hnul : (0 : UInt8) ∈ frameKey filename lineno prev := by simp [frameKey]
  rw [heq] at hnul
  exact absurd hnul (by decide)

theorem keyOf_userFrame (func : ZendFunction) (lineno prev : UInt32) :
    KeyOf (frameKey func.filename lineno prev) (userFrame func lineno prev) :=
  @KeyOf.user (userFrame func lineno prev) func.filename rfl

theorem KeyOf.of_marker {key : Bytes} {frame : Frame} (hkey : KeyOf key frame)
    (hmarker : key = truncatedName) : frame = truncationFrame := by
  cases hkey with
  | marker => rfl
  | user hname => exact absurd hmarker (frameKey_ne_truncatedName _ _ _)

theorem KeyOf.of_user {key filename : Bytes} {lineno prev : UInt32} {frame : Frame}
    (hkey : KeyOf key frame) (heq : key = frameKey filename lineno prev) :
    frame.filename = some filename ∧ frame.lineno = lineno ∧ frame.prevIndex = prev := by
  cases hkey with
  | marker => exact absurd heq.symm (frameKey_ne_truncatedName _ _ _)
  | user hname =>
      obtain ⟨rfl, rfl, rfl⟩ := frameKey_inj heq
      exact ⟨hname, rfl, rfl⟩

theorem KeyOf.filename_isSome {key : Bytes} {frame : Frame} (hkey : KeyOf key frame) :
    frame.filename.isSome := by
  cases hkey with
  | marker => rfl
  | user hname => rw [hname]; rfl

end Keys

theorem Extends.refl (log : Log) : Extends log log :=
  ⟨List.prefix_refl _, fun h => h, fun h _ => h⟩

theorem Extends.trans {first second third : Log} (hfirst : Extends first second)
    (hsecond : Extends second third) : Extends first third where
  frames := hfirst.frames.trans hsecond.frames
  find hkey := hsecond.find (hfirst.find hkey)
  find_old hkey hlt :=
    hfirst.find_old (hsecond.find_old hkey (Nat.lt_of_lt_of_le hlt hfirst.frames.length_le)) hlt

theorem safeUint32_eq {n : Nat} {i : UInt32} (hsafe : safeUint32 n = some i) : i.toNat = n := by
  unfold safeUint32 at hsafe
  obtain ⟨hrange, hi⟩ := Option.ite_none_left_eq_some.mp hsafe
  obtain rfl := Option.some.inj hi
  have hlt : n < 4294967296 := by omega
  simp [Nat.mod_eq_of_lt hlt]

section Append

variable {log next : Log} {key : Bytes} {frame : Frame} {index : UInt32}

theorem lookupOrAppend_cases (hrun : log.lookupOrAppend key frame = some (next, index)) :
    (log.reverseFrames.find key = some index.toNat ∧ next = log) ∨
      (log.reverseFrames.find key = none ∧ index.toNat = log.frames.length ∧
        next = log.appendFrame key frame) := by
  unfold lookupOrAppend at hrun
  cases hfind : log.reverseFrames.find key with
  | some i =>
      simp only [hfind] at hrun
      obtain ⟨j, hsafe, hpair⟩ := Option.map_eq_some_iff.mp hrun
      obtain ⟨rfl, rfl⟩ := Prod.mk.inj hpair
      exact Or.inl ⟨by rw [safeUint32_eq hsafe], rfl⟩
  | none =>
      simp only [hfind] at hrun
      obtain ⟨j, hsafe, hpair⟩ := Option.map_eq_some_iff.mp hrun
      obtain ⟨rfl, rfl⟩ := Prod.mk.inj hpair
      exact Or.inr ⟨rfl, safeUint32_eq hsafe, rfl⟩

theorem find_appendFrame (hnew : log.reverseFrames.find key = none) (other : Bytes) :
    (log.appendFrame key frame).reverseFrames.find other =
      if other = key then some log.frames.length else log.reverseFrames.find other :=
  OrderedMap.find_add hnew _ other

theorem WellFormed.find_lt (hwf : log.WellFormed) {other : Bytes} {i : Nat}
    (hfind : log.reverseFrames.find other = some i) : i < log.frames.length := by
  obtain ⟨-, frame, hframe, -⟩ := hwf.key_index other i hfind
  exact (List.getElem?_eq_some_iff.mp hframe).1

theorem appendFrame_extends (hnew : log.reverseFrames.find key = none) :
    Extends log (log.appendFrame key frame) where
  frames := List.prefix_append _ _
  find := by
    intro other i hother
    rw [find_appendFrame hnew]
    by_cases heq : other = key
    · rw [heq, hnew] at hother
      cases hother
    · rw [if_neg heq, hother]
  find_old := by
    intro other i hother hlt
    rw [find_appendFrame hnew] at hother
    by_cases heq : other = key
    · rw [if_pos heq] at hother
      have hi := Option.some.inj hother
      omega
    · rwa [if_neg heq] at hother

theorem appendFrame_wellFormed (hwf : log.WellFormed) (hkey : KeyOf key frame)
    (hprev : frame.prevIndex.toNat < log.frames.length)
    (hnew : log.reverseFrames.find key = none) : (log.appendFrame key frame).WellFormed := by
  have hpos : 0 < log.frames.length := (List.getElem?_eq_some_iff.mp hwf.reserved).1
  have hlength : (log.appendFrame key frame).frames.length = log.frames.length + 1 := by
    simp [appendFrame]
  have hold : ∀ {i}, i < log.frames.length →
      (log.appendFrame key frame).frames[i]? = log.frames[i]? := fun hlt =>
    List.getElem?_append_left hlt
  have hlast : (log.appendFrame key frame).frames[log.frames.length]? = some frame := by
    simp [appendFrame]
  constructor
  · rw [hold hpos]
    exact hwf.reserved
  · intro i other hi hother
    have hlt := (List.getElem?_eq_some_iff.mp hother).1
    rcases Nat.lt_or_eq_of_le (Nat.le_of_lt_succ (hlength ▸ hlt)) with hlt | rfl
    · exact hwf.prev_lt i other hi (hold hlt ▸ hother)
    · obtain rfl := Option.some.inj (hlast.symm.trans hother)
      exact hprev
  · intro entry hmem
    have hlt := hwf.entry_lt entry hmem
    omega
  · intro other i hother
    rw [find_appendFrame hnew] at hother
    by_cases heq : other = key
    · rw [if_pos heq] at hother
      obtain rfl := Option.some.inj hother
      exact ⟨by omega, frame, hlast, heq ▸ hkey⟩
    · rw [if_neg heq] at hother
      obtain ⟨hi, stored, hstored, hkeyOf⟩ := hwf.key_index other i hother
      exact ⟨hi, stored, (hold (hwf.find_lt hother)).trans hstored, hkeyOf⟩
  · intro first second i hfirst hsecond
    rw [find_appendFrame hnew] at hfirst hsecond
    split at hfirst <;> split at hsecond
    · simp_all
    · have hlt := hwf.find_lt hsecond
      have hi := Option.some.inj hfirst
      omega
    · have hlt := hwf.find_lt hfirst
      have hi := Option.some.inj hsecond
      omega
    · exact hwf.key_unique first second i hfirst hsecond
  · intro i hi hlt
    rcases Nat.lt_or_eq_of_le (Nat.le_of_lt_succ (hlength ▸ hlt)) with hlt | rfl
    · obtain ⟨stored, hstored⟩ := hwf.key_exists i hi hlt
      exact ⟨stored, (appendFrame_extends hnew).find hstored⟩
    · exact ⟨key, by rw [find_appendFrame hnew, if_pos rfl]⟩

/-- What a successful lookup or addition does to the table. -/
structure Interned (log : Log) (key : Bytes) (frame : Frame) (next : Log) (index : UInt32) :
    Prop where
  wellFormed : next.WellFormed
  extends_table : Extends log next
  found : next.reverseFrames.find key = some index.toNat
  added : ∀ i new, log.frames.length ≤ i → next.frames[i]? = some new →
    i = index.toNat ∧ new = frame
  entries : next.entries = log.entries
  maxDepth : next.maxDepth = log.maxDepth
  eventCount : next.eventCount = log.eventCount

theorem lookupOrAppend_interned (hwf : log.WellFormed) (hkey : KeyOf key frame)
    (hprev : frame.prevIndex.toNat < log.frames.length)
    (hrun : log.lookupOrAppend key frame = some (next, index)) :
    Interned log key frame next index := by
  rcases lookupOrAppend_cases hrun with ⟨hfind, rfl⟩ | ⟨hnew, hindex, rfl⟩
  · refine ⟨hwf, Extends.refl _, hfind, ?_, rfl, rfl, rfl⟩
    intro i new hle hnew
    have hlt := (List.getElem?_eq_some_iff.mp hnew).1
    omega
  · refine ⟨appendFrame_wellFormed hwf hkey hprev hnew, appendFrame_extends hnew, ?_, ?_,
      rfl, rfl, rfl⟩
    · rw [find_appendFrame hnew, if_pos rfl, hindex]
    · intro i new hle hi
      have hi : (log.frames ++ [frame])[i]? = some new := hi
      rw [List.getElem?_append_right hle] at hi
      obtain ⟨hlt, heq⟩ := List.getElem?_eq_some_iff.mp hi
      have hzero : i - log.frames.length = 0 := by simpa using hlt
      simp only [hzero, List.getElem_cons_zero] at heq
      exact ⟨by omega, heq.symm⟩

end Append

/-- The frames met by following `prev_index` from an index. -/
abbrev Path (log : Log) : Nat → List (Nat × Frame) → Prop :=
  Chain (fun i => log.getFrame i) fun frame => frame.prevIndex.toNat

theorem getFrame_eq {log : Log} {i : Nat} {frame : Frame} :
    log.getFrame i = some frame ↔ i ≠ 0 ∧ log.frames[i]? = some frame := by
  unfold getFrame
  simp only [Int.toNat_natCast, Option.ite_none_right_eq_some]
  constructor
  · rintro ⟨hrange, hframe⟩
    exact ⟨by omega, hframe⟩
  · rintro ⟨hne, hframe⟩
    have hlt := (List.getElem?_eq_some_iff.mp hframe).1
    exact ⟨by omega, hframe⟩

theorem Path.lt {log : Log} {i : Nat} {chain : List (Nat × Frame)} (hchain : log.Path i chain)
    {link : Nat × Frame} (hmem : link ∈ chain) : link.1 < log.frames.length := by
  obtain ⟨-, hnode⟩ := hchain.node_of_mem hmem
  exact (List.getElem?_eq_some_iff.mp (getFrame_eq.mp hnode).2).1

/-- Following `prev_index` ends within as many steps as there are frames. -/
theorem WellFormed.grounded {log : Log} (hwf : log.WellFormed) :
    Grounded (fun i => log.getFrame i) (fun frame => frame.prevIndex.toNat) log.frames.length := by
  intro i hne hlt
  have hframe := List.getElem?_eq_getElem hlt
  exact ⟨log.frames[i], getFrame_eq.mpr ⟨hne, hframe⟩, hwf.prev_lt i _ hne hframe⟩

/-- The options of a log do not matter for its representation. -/
theorem WellFormed.of_table {log next : Log} (hwf : log.WellFormed)
    (hframes : next.frames = log.frames) (hreverse : next.reverseFrames = log.reverseFrames)
    (hentries : ∀ entry ∈ next.entries, entry.frameIndex.toNat < log.frames.length) :
    next.WellFormed := by
  obtain ⟨hreserved, hprev, -, hindex, hunique, hexists⟩ := hwf
  constructor
  · rwa [hframes]
  · rwa [hframes]
  · rwa [hframes]
  · rwa [hframes, hreverse]
  · rwa [hreverse]
  · rwa [hframes, hreverse]

theorem init_wellFormed (memory : Log) : (init memory).WellFormed where
  reserved := rfl
  prev_lt := by
    intro i frame hi hframe
    have hlt := (List.getElem?_eq_some_iff.mp hframe).1
    simp [init] at hlt
    omega
  entry_lt := by simp [init]
  key_index := by
    intro key i hfind
    cases hfind
  key_unique := by
    intro key other i hfind
    cases hfind
  key_exists := by
    intro i hi hlt
    simp [init] at hlt
    omega

section Fields

variable {log next : Log} {index : UInt32}

/-- Only the table of frames differs. -/
structure TableOnly (log next : Log) : Prop where
  entries : next.entries = log.entries
  maxDepth : next.maxDepth = log.maxDepth
  epoch : next.epoch = log.epoch
  period : next.period = log.period
  eventCount : next.eventCount = log.eventCount

theorem TableOnly.refl (log : Log) : TableOnly log log := ⟨rfl, rfl, rfl, rfl, rfl⟩

theorem TableOnly.trans {mid : Log} (hfirst : TableOnly log mid) (hsecond : TableOnly mid next) :
    TableOnly log next where
  entries := hsecond.entries.trans hfirst.entries
  maxDepth := hsecond.maxDepth.trans hfirst.maxDepth
  epoch := hsecond.epoch.trans hfirst.epoch
  period := hsecond.period.trans hfirst.period
  eventCount := hsecond.eventCount.trans hfirst.eventCount

theorem lookupOrAppend_fields {key : Bytes} {frame : Frame}
    (hrun : log.lookupOrAppend key frame = some (next, index)) : TableOnly log next := by
  unfold lookupOrAppend at hrun
  split at hrun
  · obtain ⟨i, -, hpair⟩ := Option.map_eq_some_iff.mp hrun
    obtain ⟨rfl, -⟩ := Prod.mk.inj hpair
    exact .refl log
  · obtain ⟨i, -, hpair⟩ := Option.map_eq_some_iff.mp hrun
    obtain ⟨rfl, -⟩ := Prod.mk.inj hpair
    exact ⟨rfl, rfl, rfl, rfl, rfl⟩

theorem recordFrame_fields {current : ExecuteData} {prevIndex : UInt32}
    (hrun : log.recordFrame current prevIndex = some (next, index)) : TableOnly log next := by
  unfold recordFrame at hrun
  split at hrun
  · obtain ⟨rfl, -⟩ := Prod.mk.inj (Option.some.inj hrun)
    exact .refl log
  · exact lookupOrAppend_fields hrun

theorem findOrAddFrame_fields {stack : List ExecuteData} {depth : Int}
    (hrun : log.findOrAddFrame stack depth = some (next, index)) : TableOnly log next := by
  induction stack generalizing depth next index with
  | nil =>
      obtain ⟨rfl, -⟩ := Prod.mk.inj (Option.some.inj hrun)
      exact .refl log
  | cons current outer ih =>
      cases outer with
      | nil => exact recordFrame_fields hrun
      | cons prev outer =>
          obtain ⟨⟨mid, prevIndex⟩, hcaller, hrecord⟩ := Option.bind_eq_some_iff.mp hrun
          refine TableOnly.trans ?_ (recordFrame_fields hrecord)
          split at hcaller
          · exact lookupOrAppend_fields hcaller
          · exact ih hcaller

/-- A sample adds an entry and does not change the options of the log. -/
theorem add_fields {stack : List ExecuteData} {eventCount : Int} {timestamp : UInt64}
    (hrun : log.add stack eventCount timestamp = some next) :
    next.epoch = log.epoch ∧ next.period = log.period ∧
      ∃ entry, next.entries = log.entries ++ [entry] := by
  obtain ⟨⟨table, index⟩, hfind, rfl⟩ := Option.map_eq_some_iff.mp hrun
  have htable : TableOnly log table := findOrAddFrame_fields hfind
  exact ⟨htable.epoch, htable.period, _, congrArg (· ++ _) htable.entries⟩

end Fields

end Excimer.Log
