import Excimer.Lib.References
import Excimer.Log.Paths

/-!
The strings of a log. A frame refers to the filename, the class name and the
function name that the engine has for a function, and the log counts these
references. It allocates strings of its own as well: the keys of
`reverse_frames` and the two names of the truncation marker. A string is freed by
whoever gives up the last reference, but `zend_string_delref` never frees.

The log itself behaves as in `Excimer.Log.Basic`; only the bookkeeping is added.
-/

namespace Excimer

open References

/-- A `zend_string` of the engine. An interned one is not counted. -/
structure ZendString where
  id : Nat
  text : Bytes
  interned : Bool
  deriving DecidableEq, Repr

/-- A string with a count: one of the engine, or one that the log has allocated. -/
inductive StringId where
  | engine (id : Nat)
  | own (id : Nat)
  deriving DecidableEq, Repr

/-- A `zend_function` with the strings it names. -/
structure NamedFunction where
  type : UInt8
  filename : ZendString
  scope : Option (Option ZendString)
  functionName : Option ZendString
  isClosure : Bool
  lineStart : UInt32
  deriving DecidableEq, Repr

structure NamedData where
  func : Option NamedFunction
  lineno : UInt32
  deriving DecidableEq, Repr

namespace NamedFunction

/-- The function as the log reads it. -/
def plain (func : NamedFunction) : ZendFunction where
  type := func.type
  filename := func.filename.text
  scope := func.scope.map fun name => name.map ZendString.text
  functionName := func.functionName.map ZendString.text
  isClosure := func.isClosure
  lineStart := func.lineStart

/-- The counted strings that a frame of the function refers to. -/
def names (func : NamedFunction) : List StringId :=
  (func.filename :: (func.scope.join.toList ++ func.functionName.toList)).filterMap fun name =>
    if name.interned then none else some (.engine name.id)

end NamedFunction

namespace NamedData

def plain (current : NamedData) : ExecuteData :=
  ⟨current.func.map NamedFunction.plain, current.lineno⟩

def userFunction (current : NamedData) : Option NamedFunction :=
  current.func.filter fun func => zendUserCode func.type

/-- The counted strings that recording the element touches. -/
def names (current : NamedData) : List StringId :=
  current.userFunction.toList.flatMap NamedFunction.names

end NamedData

/-- A log with the strings it refers to, and the counts of all strings. -/
structure CountedLog where
  log : Log
  /-- The strings of each frame. -/
  frameNames : List (List StringId)
  /-- The keys of `reverse_frames`. -/
  keys : List StringId
  refcount : StringId → Int
  /-- The references that the engine holds. -/
  others : StringId → Int
  freed : List StringId
  /-- The number of strings that the log has allocated. -/
  allocated : Nat

namespace CountedLog

/-- `excimer_log_init`. The engine has some strings already. -/
def init (memory : Log) (others : Nat → Int) : CountedLog where
  log := Log.init memory
  frameNames := [[]]
  keys := []
  refcount
    | .engine id => others id
    | .own _ => 0
  others
    | .engine id => others id
    | .own _ => 0
  freed := []
  allocated := 0

/-- `zend_string_addref` -/
def addref (c : CountedLog) (names : List StringId) : CountedLog :=
  { c with refcount := References.retain c.refcount names }

/-- `zend_string_delref`, which frees nothing. -/
def delref (c : CountedLog) (names : List StringId) : CountedLog :=
  { c with refcount := References.release c.refcount names }

/-- Allocate a string. Its count was zero and is one. -/
def alloc (c : CountedLog) : CountedLog :=
  { c with
    refcount := References.retain c.refcount [.own c.allocated]
    allocated := c.allocated + 1 }

/-- `zend_string_free` -/
def free (c : CountedLog) (name : StringId) : CountedLog :=
  { c with refcount := References.release c.refcount [name], freed := c.freed ++ [name] }

/-- `zend_string_release` -/
def zendStringRelease (c : CountedLog) (name : StringId) : CountedLog :=
  if c.refcount name = 1 then c.free name else c.delref [name]

/-- The strings when the frame of a function is found: the references that were
taken for it are undone, and the key is freed. -/
def hit (c : CountedLog) (names : List StringId) : CountedLog :=
  let key := StringId.own c.allocated
  (((c.addref names).alloc).free key).delref names

/-- The strings when the frame of a function is added. `zend_hash_add` takes a
reference to the key, and the one of the allocation is given up. -/
def miss (c : CountedLog) (names : List StringId) : CountedLog :=
  let key := StringId.own c.allocated
  let c := ((c.addref names).alloc).addref [key]
  { c.delref [key] with frameNames := c.frameNames ++ [names], keys := c.keys ++ [key] }

/-- The strings of the truncation marker: `zend_hash_str_add` allocates the key,
and `zend_string_init` the filename and the function name. -/
def mark (c : CountedLog) : CountedLog :=
  { c.alloc.alloc.alloc with
    keys := c.keys ++ [.own c.allocated]
    frameNames := c.frameNames ++ [[.own (c.allocated + 1), .own (c.allocated + 2)]] }

/-- `excimer_log_get_truncation_marker` -/
def getTruncationMarker (c : CountedLog) : Option (CountedLog × UInt32) :=
  c.log.getTruncationMarker.map fun (log, index) =>
    if c.log.marker.isSome then (c, index) else ({ c.mark with log := log }, index)

/-- The second half of `excimer_log_find_or_add_frame`. -/
def recordFrame (c : CountedLog) (current : NamedData) (prevIndex : UInt32) :
    Option (CountedLog × UInt32) :=
  match current.userFunction with
  | none => some (c, prevIndex)
  | some func =>
      let key := Log.frameKey func.filename.text current.lineno prevIndex
      (c.log.lookupOrAppend key (Log.userFrame func.plain current.lineno prevIndex)).map
        fun (log, index) =>
          if (c.log.reverseFrames.find key).isSome then (c.hit func.names, index)
          else ({ c.miss func.names with log := log }, index)

/-- `excimer_log_find_or_add_frame` -/
def findOrAddFrame (c : CountedLog) : List NamedData → Int → Option (CountedLog × UInt32)
  | [], _ => some (c, 0)
  | [current], _ => c.recordFrame current 0
  | current :: prev :: outer, depth =>
      let caller :=
        if c.log.maxDepth ≠ 0 ∧ depth ≥ c.log.maxDepth then c.getTruncationMarker
        else c.findOrAddFrame (prev :: outer) (depth + 1)
      caller.bind fun (next, prevIndex) => next.recordFrame current prevIndex

/-- `excimer_log_add` -/
def add (c : CountedLog) (stack : List NamedData) (eventCount : Int) (timestamp : UInt64) :
    Option CountedLog :=
  (c.findOrAddFrame stack 0).map fun (next, frameIndex) =>
    { next with log := { next.log with
        entries := next.log.entries ++ [⟨frameIndex, eventCount, timestamp⟩]
        eventCount := next.log.eventCount + eventCount } }

/-- The strings in `excimer_log_destroy`: `zend_string_delref` for the names of
each frame, and `zend_string_release` for each key in `zend_hash_destroy`. -/
def destroy (c : CountedLog) : CountedLog :=
  c.keys.foldl zendStringRelease (c.delref c.frameNames.flatten)

inductive Action where
  | add (stack : List NamedData) (eventCount : Int) (timestamp : UInt64)
  | setMaxDepth (depth : Int)
  /-- The engine takes or gives up a reference to one of its strings. -/
  | retain (id : Nat)
  | release (id : Nat)

/-- The engine holds a reference to every string that a function on the stack
names, and gives up only references that it holds. -/
def step (c : CountedLog) : Action → Option CountedLog
  | .add stack eventCount timestamp =>
      if ∀ current ∈ stack, ∀ name ∈ current.names, 0 < c.others name then
        c.add stack eventCount timestamp
      else
        none
  | .setMaxDepth depth => some { c with log := c.log.setMaxDepth depth }
  | .retain id =>
      if 0 < c.others (.engine id) then
        some { c.addref [.engine id] with others := References.retain c.others [.engine id] }
      else
        none
  | .release id =>
      if 0 < c.others (.engine id) then
        some { c.zendStringRelease (.engine id) with
          others := References.release c.others [.engine id] }
      else
        none

/-- What `excimer_log_destroy` owes: the engine's strings have lost the references
of the log, the log's strings are freed, and so is every string whose count
reaches zero. -/
structure Disposed (c after : CountedLog) : Prop where
  released : ∀ id, after.refcount (.engine id) = after.others (.engine id)
  own_freed : ∀ id < after.allocated, .own id ∈ after.freed
  zero_freed : ∀ name, 0 < c.refcount name → after.refcount name = 0 → name ∈ after.freed

/-- The strings that the log refers to. -/
def held (c : CountedLog) : List StringId := c.frameNames.flatten ++ c.keys

structure Inv (c : CountedLog) : Prop where
  balanced : Balanced c.refcount c.others c.held
  others_nonneg : ∀ id, 0 ≤ c.others (.engine id)
  own_others : ∀ id, c.others (.own id) = 0
  /-- Each string that the log has allocated was freed or is held, and only once. -/
  own_once : ∀ id, (c.freed ++ c.held).count (.own id) = if id < c.allocated then 1 else 0
  engine_freed : ∀ id, .engine id ∈ c.freed → c.refcount (.engine id) = 0
  engine_keys : ∀ id, .engine id ∉ c.keys
  /-- The only frame with strings of the log is the truncation marker. -/
  marker : (∃ id, .own id ∈ c.frameNames.flatten) ↔ c.log.marker ≠ none

section Bookkeeping

variable {c : CountedLog}

theorem hit_eq (c : CountedLog) (names : List StringId) :
    c.hit names = { c with
      freed := c.freed ++ [.own c.allocated]
      allocated := c.allocated + 1 } := by
  simp [hit, addref, alloc, free, delref]

theorem miss_eq (c : CountedLog) (names : List StringId) :
    c.miss names = { c with
      frameNames := c.frameNames ++ [names]
      keys := c.keys ++ [.own c.allocated]
      refcount := References.retain (References.retain c.refcount names) [.own c.allocated]
      allocated := c.allocated + 1 } := by
  simp [miss, addref, alloc, delref]

theorem mark_eq (c : CountedLog) :
    c.mark = { c with
      frameNames := c.frameNames ++ [[.own (c.allocated + 1), .own (c.allocated + 2)]]
      keys := c.keys ++ [.own c.allocated]
      refcount := References.retain (References.retain (References.retain c.refcount
        [.own c.allocated]) [.own (c.allocated + 1)]) [.own (c.allocated + 2)]
      allocated := c.allocated + 3 } := rfl

theorem count_own (n id : Nat) :
    [StringId.own n].count (.own id) = if id = n then 1 else 0 := by
  by_cases heq : id = n
  · simp [heq]
  · simp [heq, Ne.symm heq]

theorem count_pair (first second name : StringId) :
    [first, second].count name = [first].count name + [second].count name := by
  rw [← List.count_append]
  rfl

theorem count_engine_own (names : List StringId)
    (hnames : ∀ name ∈ names, ∃ id, name = .engine id) (id : Nat) : names.count (.own id) = 0 := by
  rw [List.count_eq_zero]
  intro hmem
  obtain ⟨other, hother⟩ := hnames _ hmem
  cases hother

theorem names_engine (func : NamedFunction) : ∀ name ∈ func.names, ∃ id, name = .engine id := by
  intro name hmem
  obtain ⟨str, -, hstr⟩ := List.mem_filterMap.mp hmem
  split at hstr
  · cases hstr
  · exact ⟨str.id, (Option.some.inj hstr).symm⟩

/-- The log may take references to strings of the engine that are alive. -/
theorem Inv.engine_retain (hinv : Inv c) {names : List StringId}
    (halive : ∀ name ∈ names, 0 < c.others name) {id : Nat} (hfreed : .engine id ∈ c.freed) :
    References.retain c.refcount names (.engine id) = 0 := by
  have hzero := hinv.engine_freed id hfreed
  have hbalance := hinv.balanced (.engine id)
  have hnonneg := hinv.others_nonneg id
  have hother : names.count (.engine id) = 0 := by
    rw [List.count_eq_zero]
    intro hmem
    have := halive _ hmem
    omega
  rw [References.retain, hother, hzero]
  rfl

theorem Inv.hit (hinv : Inv c) (names : List StringId) : Inv (c.hit names) := by
  rw [hit_eq]
  refine ⟨hinv.balanced, hinv.others_nonneg, hinv.own_others, fun id => ?_, fun id hmem => ?_,
    hinv.engine_keys, hinv.marker⟩
  · have honce := hinv.own_once id
    simp only [held, List.count_append, count_own] at honce ⊢
    split_ifs at honce ⊢ <;> omega
  · rcases List.mem_append.mp hmem with hold | hnew
    · exact hinv.engine_freed id hold
    · cases List.mem_singleton.mp hnew

/-- A frame is added under a key that is not the one of the marker. -/
theorem Inv.miss (hinv : Inv c) {func : NamedFunction} {log : Log}
    (halive : ∀ name ∈ func.names, 0 < c.others name) (hmarker : log.marker = c.log.marker) :
    Inv { c.miss func.names with log := log } := by
  have hengine := names_engine func
  rw [miss_eq]
  refine ⟨fun name => ?_, hinv.others_nonneg, hinv.own_others, fun id => ?_, fun id hmem => ?_,
    fun id hmem => ?_, ?_⟩
  · have hbalance := hinv.balanced name
    simp only [held, References.retain, List.flatten_append, List.flatten_singleton,
      List.count_append] at hbalance ⊢
    omega
  · have honce := hinv.own_once id
    simp only [held, List.flatten_append, List.flatten_singleton, List.count_append, count_own,
      count_engine_own _ hengine] at honce ⊢
    split_ifs at honce ⊢ <;> omega
  · simp only [References.retain]
    have hzero := hinv.engine_retain halive hmem
    simp only [References.retain] at hzero
    simpa using hzero
  · rcases List.mem_append.mp hmem with hold | hnew
    · exact hinv.engine_keys id hold
    · cases List.mem_singleton.mp hnew
  · simp only [hmarker, ← hinv.marker, List.flatten_append, List.flatten_singleton,
      List.mem_append]
    refine exists_congr fun id => ⟨fun hmem => ?_, Or.inl⟩
    rcases hmem with hold | hnew
    · exact hold
    · obtain ⟨other, hother⟩ := hengine _ hnew
      cases hother

theorem Inv.mark (hinv : Inv c) {log : Log} (hmarker : log.marker ≠ none) :
    Inv { c.mark with log := log } := by
  rw [mark_eq]
  refine ⟨fun name => ?_, hinv.others_nonneg, hinv.own_others, fun id => ?_, fun id hmem => ?_,
    fun id hmem => ?_, ?_⟩
  · have hbalance := hinv.balanced name
    simp only [held, References.retain, List.flatten_append, List.flatten_singleton,
      List.count_append, count_pair] at hbalance ⊢
    omega
  · have honce := hinv.own_once id
    simp only [held, List.flatten_append, List.flatten_singleton, List.count_append, count_pair,
      count_own] at honce ⊢
    split_ifs at honce ⊢ <;> omega
  · simp only [References.retain]
    have hzero := hinv.engine_freed id hmem
    simpa using hzero
  · rcases List.mem_append.mp hmem with hold | hnew
    · exact hinv.engine_keys id hold
    · cases List.mem_singleton.mp hnew
  · refine ⟨fun _ => hmarker, fun _ => ⟨c.allocated + 1, ?_⟩⟩
    simp

end Bookkeeping

section Recording

variable {c next : CountedLog} {index prevIndex : UInt32}

theorem userFunction_plain (current : NamedData) :
    current.plain.userFunction = current.userFunction.map NamedFunction.plain := by
  obtain ⟨func, lineno⟩ := current
  cases func with
  | none => rfl
  | some func =>
      simp only [NamedData.plain, ExecuteData.userFunction, NamedData.userFunction, Option.map_some,
        Option.filter_some, NamedFunction.plain]
      split <;> rfl

/-- What recording does to the strings, beside what it does to the log. -/
structure Recorded (c next : CountedLog) (plain : Option (Log × UInt32)) (index : UInt32) :
    Prop where
  inv : Inv next
  others : next.others = c.others
  plain : plain = some (next.log, index)

theorem recordFrame_recorded (hinv : Inv c) {current : NamedData}
    (halive : ∀ name ∈ current.names, 0 < c.others name)
    (hrun : c.recordFrame current prevIndex = some (next, index)) :
    Recorded c next (c.log.recordFrame current.plain prevIndex) index := by
  unfold recordFrame at hrun
  unfold Log.recordFrame
  rw [userFunction_plain]
  cases hfunc : current.userFunction with
  | none =>
      simp only [hfunc, Option.some.injEq, Prod.mk.injEq] at hrun
      obtain ⟨rfl, rfl⟩ := hrun
      exact ⟨hinv, rfl, rfl⟩
  | some func =>
      have hnames : ∀ name ∈ func.names, 0 < c.others name := by
        simpa [NamedData.names, hfunc] using halive
      simp only [hfunc] at hrun
      obtain ⟨⟨log, found⟩, hlookup, hpair⟩ := Option.map_eq_some_iff.mp hrun
      rcases Log.lookupOrAppend_cases hlookup with ⟨hfind, rfl⟩ | ⟨hfind, -, hlog⟩
      · simp only [hfind, Option.isSome_some] at hpair
        obtain ⟨rfl, rfl⟩ := Prod.mk.inj hpair
        refine ⟨hinv.hit func.names, by rw [hit_eq], ?_⟩
        rw [hit_eq]
        exact hlookup
      · simp only [hfind, Option.isSome_none] at hpair
        obtain ⟨rfl, rfl⟩ := Prod.mk.inj hpair
        refine ⟨hinv.miss hnames ?_, by rw [miss_eq], hlookup⟩
        rw [hlog]
        exact Log.marker_appendFrame hfind

theorem getTruncationMarker_recorded (hinv : Inv c)
    (hrun : c.getTruncationMarker = some (next, index)) :
    Recorded c next c.log.getTruncationMarker index := by
  obtain ⟨⟨log, found⟩, hlookup, hpair⟩ := Option.map_eq_some_iff.mp hrun
  rcases Log.lookupOrAppend_cases hlookup with ⟨hfind, rfl⟩ | ⟨hfind, -, hlog⟩
  · simp only [Log.marker, hfind, Option.isSome_some] at hpair
    obtain ⟨rfl, rfl⟩ := Prod.mk.inj hpair
    exact ⟨hinv, rfl, hlookup⟩
  · simp only [Log.marker, hfind, Option.isSome_none] at hpair
    obtain ⟨rfl, rfl⟩ := Prod.mk.inj hpair
    refine ⟨hinv.mark ?_, by rw [mark_eq], hlookup⟩
    rw [hlog, Log.marker, Log.find_appendFrame hfind, if_pos rfl]
    exact Option.some_ne_none _

theorem findOrAddFrame_recorded (hinv : Inv c) (stack : List NamedData) (depth : Int)
    (halive : ∀ current ∈ stack, ∀ name ∈ current.names, 0 < c.others name)
    (hrun : c.findOrAddFrame stack depth = some (next, index)) :
    Recorded c next (c.log.findOrAddFrame (stack.map NamedData.plain) depth) index := by
  induction stack generalizing depth next index with
  | nil =>
      simp only [findOrAddFrame, Option.some.injEq, Prod.mk.injEq] at hrun
      obtain ⟨rfl, rfl⟩ := hrun
      exact ⟨hinv, rfl, rfl⟩
  | cons current outer ih =>
      have hcurrent := halive current List.mem_cons_self
      cases outer with
      | nil => exact recordFrame_recorded hinv hcurrent hrun
      | cons prev outer =>
          simp only [findOrAddFrame] at hrun
          simp only [List.map_cons, Log.findOrAddFrame]
          obtain ⟨⟨mid, callerIndex⟩, hcaller, hrecord⟩ := Option.bind_eq_some_iff.mp hrun
          have hmid : Recorded c mid
              (if c.log.maxDepth ≠ 0 ∧ depth ≥ c.log.maxDepth then c.log.getTruncationMarker
                else c.log.findOrAddFrame (prev.plain :: outer.map NamedData.plain) (depth + 1))
              callerIndex := by
            split at hcaller
            next hcut =>
              rw [if_pos hcut]
              exact getTruncationMarker_recorded hinv hcaller
            next hgo =>
              rw [if_neg hgo]
              exact ih (depth + 1) (fun other hmem => halive other (List.mem_cons_of_mem _ hmem))
                hcaller
          have hlast := recordFrame_recorded hmid.inv (hmid.others ▸ hcurrent) hrecord
          refine ⟨hlast.inv, hlast.others.trans hmid.others, ?_⟩
          rw [hmid.plain]
          exact hlast.plain

end Recording

section Runs

variable {c next : CountedLog} {action : Action}

/-- The calls that the log itself sees. -/
def plainActions (actions : List Action) : List Log.Action :=
  actions.filterMap fun
    | .add stack eventCount timestamp =>
        some (.add (stack.map NamedData.plain) eventCount timestamp)
    | .setMaxDepth depth => some (.setMaxDepth depth)
    | .retain _ | .release _ => none

theorem Inv.of_log (hinv : Inv c) {log : Log} (hmarker : log.marker = c.log.marker) :
    Inv { c with log := log } :=
  ⟨hinv.balanced, hinv.others_nonneg, hinv.own_others, hinv.own_once, hinv.engine_freed,
    hinv.engine_keys, by rw [hmarker]; exact hinv.marker⟩

theorem add_recorded (hinv : Inv c) {stack : List NamedData} {eventCount : Int} {timestamp : UInt64}
    (halive : ∀ current ∈ stack, ∀ name ∈ current.names, 0 < c.others name)
    (hrun : c.add stack eventCount timestamp = some next) :
    Inv next ∧ c.log.add (stack.map NamedData.plain) eventCount timestamp = some next.log := by
  obtain ⟨⟨mid, index⟩, hfind, rfl⟩ := Option.map_eq_some_iff.mp hrun
  have hrecorded := findOrAddFrame_recorded hinv stack 0 halive hfind
  refine ⟨hrecorded.inv.of_log rfl, ?_⟩
  rw [Log.add, hrecorded.plain]
  rfl

theorem retain_inv (hinv : Inv c) {id : Nat} (halive : 0 < c.others (.engine id)) :
    Inv { c.addref [.engine id] with others := References.retain c.others [.engine id] } where
  balanced := hinv.balanced.others_retain [.engine id]
  others_nonneg other := by
    have := hinv.others_nonneg other
    simp only [References.retain]
    omega
  own_others other := by simp [References.retain, hinv.own_others]
  own_once := hinv.own_once
  engine_freed other hmem := by
    apply hinv.engine_retain _ hmem
    simpa using halive
  engine_keys := hinv.engine_keys
  marker := hinv.marker

theorem release_inv (hinv : Inv c) {id : Nat} (halive : 0 < c.others (.engine id)) :
    Inv { c.zendStringRelease (.engine id) with
      others := References.release c.others [.engine id] } := by
  have hbalanced : Balanced (References.release c.refcount [.engine id])
      (References.release c.others [.engine id]) c.held := hinv.balanced.others_release [.engine id]
  have hnonneg : ∀ other, 0 ≤ References.release c.others [.engine id] (.engine other) := by
    intro other
    have hnonneg := hinv.others_nonneg other
    by_cases heq : id = other
    · subst heq
      simp only [References.release, List.count_singleton_self]
      omega
    · simpa [References.release, heq] using hnonneg
  have hown : ∀ other, References.release c.others [.engine id] (.own other) = 0 := by
    intro other
    simp [References.release, hinv.own_others]
  have hfreed : ∀ other, .engine other ∈ c.freed →
      References.release c.refcount [.engine id] (.engine other) = 0 := by
    intro other hmem
    have hzero := hinv.engine_freed other hmem
    have hother : id ≠ other := by
      rintro rfl
      have hbalance := hinv.balanced (.engine id)
      omega
    simp [References.release, hzero, hother]
  unfold zendStringRelease
  split
  next hlast =>
    refine ⟨hbalanced, hnonneg, hown, fun other => ?_, fun other hmem => ?_, hinv.engine_keys,
      hinv.marker⟩
    · have hcount : (c.freed ++ [StringId.engine id] ++ c.held).count (StringId.own other) =
          (c.freed ++ c.held).count (StringId.own other) := by
        simp [List.count_append]
      exact hcount.trans (hinv.own_once other)
    · rcases List.mem_append.mp hmem with hold | hnew
      · exact hfreed other hold
      · obtain rfl := StringId.engine.inj (List.mem_singleton.mp hnew)
        simp [free, References.release, hlast]
  next =>
    exact ⟨hbalanced, hnonneg, hown, hinv.own_once, hfreed,
      hinv.engine_keys, hinv.marker⟩

theorem step_inv (hinv : Inv c) (hstep : step c action = some next) : Inv next := by
  cases action with
  | add stack eventCount timestamp =>
      simp only [step, Option.ite_none_right_eq_some] at hstep
      exact (add_recorded hinv hstep.1 hstep.2).1
  | setMaxDepth depth =>
      obtain rfl := Option.some.inj hstep
      exact hinv.of_log rfl
  | retain id =>
      simp only [step, Option.ite_none_right_eq_some] at hstep
      obtain rfl := Option.some.inj hstep.2
      exact retain_inv hinv hstep.1
  | release id =>
      simp only [step, Option.ite_none_right_eq_some] at hstep
      obtain rfl := Option.some.inj hstep.2
      exact release_inv hinv hstep.1

theorem init_inv (memory : Log) {others : Nat → Int} (hothers : ∀ id, 0 ≤ others id) :
    Inv (init memory others) where
  balanced name := by cases name <;> simp [init, held]
  others_nonneg := hothers
  own_others _ := rfl
  own_once id := by simp [init, held]
  engine_freed id hmem := by cases hmem
  engine_keys id hmem := by cases hmem
  marker := by
    have hnone : (Log.init memory).marker = none := rfl
    simp [init, hnone]

/-- The log runs as if nothing was counted. -/
theorem run_plain {actions : List Action} (hinv : Inv c)
    (hrun : Transition.run step c actions = some next) :
    Transition.run Log.step c.log (plainActions actions) = some next.log := by
  induction actions generalizing c with
  | nil =>
      obtain rfl := Option.some.inj hrun
      rfl
  | cons action rest ih =>
      obtain ⟨mid, hstep, hrest⟩ := Transition.run_cons hrun
      have hmore := ih (step_inv hinv hstep) hrest
      cases action with
      | add stack eventCount timestamp =>
          simp only [step, Option.ite_none_right_eq_some] at hstep
          have hadd := (add_recorded hinv hstep.1 hstep.2).2
          simp only [plainActions, List.filterMap_cons, Transition.run, Log.step, hadd]
          exact hmore
      | setMaxDepth depth =>
          obtain rfl := Option.some.inj hstep
          exact hmore
      | retain id =>
          simp only [step, Option.ite_none_right_eq_some] at hstep
          obtain rfl := Option.some.inj hstep.2
          exact hmore
      | release id =>
          simp only [step, Option.ite_none_right_eq_some] at hstep
          obtain rfl := Option.some.inj hstep.2
          unfold zendStringRelease at hmore
          split at hmore <;> exact hmore

end Runs

section Destroy

variable {c : CountedLog}

/-- Releasing strings with a count of one frees them. -/
theorem foldl_release (names : List StringId) (hnodup : names.Nodup)
    (hone : ∀ name ∈ names, c.refcount name = 1) :
    names.foldl zendStringRelease c = { c with
      refcount := References.release c.refcount names
      freed := c.freed ++ names } := by
  induction names generalizing c with
  | nil =>
      have hsame : References.release c.refcount [] = c.refcount := by
        funext name
        simp [References.release]
      simp [hsame]
  | cons name rest ih =>
      obtain ⟨hnew, hrest⟩ := List.nodup_cons.mp hnodup
      have hfirst : c.zendStringRelease name = c.free name := if_pos (hone name List.mem_cons_self)
      have hothers : ∀ other ∈ rest, (c.free name).refcount other = 1 := by
        intro other hmem
        have hne : name ≠ other := by
          rintro rfl
          exact hnew hmem
        simp [free, References.release, hone other (List.mem_cons_of_mem _ hmem), hne]
      rw [List.foldl_cons, hfirst, ih hrest hothers]
      have hcounts : References.release (References.release c.refcount [name]) rest =
          References.release c.refcount (name :: rest) := by
        funext other
        have hcons : (name :: rest).count other = [name].count other + rest.count other := by
          rw [← List.count_append]
          rfl
        simp only [References.release, hcons]
        omega
      simp [free, hcounts]

theorem Inv.keys_nodup (hinv : Inv c) : c.keys.Nodup := by
  rw [List.nodup_iff_count_le_one]
  intro name
  cases name with
  | engine id =>
      rw [List.count_eq_zero.mpr (hinv.engine_keys id)]
      omega
  | own id =>
      have honce := hinv.own_once id
      simp only [held, List.count_append] at honce
      split at honce <;> omega

theorem destroy_eq (hinv : Inv c) :
    c.destroy = { c with
      refcount := References.release (References.release c.refcount c.frameNames.flatten) c.keys
      freed := c.freed ++ c.keys } := by
  apply foldl_release c.keys hinv.keys_nodup
  intro name hmem
  have hbalance := hinv.balanced name
  have hkey : c.keys.count name = 1 := List.count_eq_one_of_mem hinv.keys_nodup hmem
  have hothers : c.others name = 0 := by
    cases name with
    | engine id => exact absurd hmem (hinv.engine_keys id)
    | own id => exact hinv.own_others id
  simp only [held, List.count_append] at hbalance
  simp only [delref, References.release]
  omega

/-- The log gives up all its references, whatever became of the strings. -/
theorem destroy_refcount (hinv : Inv c) (name : StringId) :
    c.destroy.refcount name = c.others name := by
  have hbalance := hinv.balanced name
  rw [destroy_eq hinv]
  simp only [held, References.release, List.count_append] at hbalance ⊢
  omega

/-- A string of the log that is held by a frame is neither freed nor a key. -/
theorem Inv.frame_own (hinv : Inv c) {id : Nat} (hmem : .own id ∈ c.frameNames.flatten) :
    id < c.allocated ∧ .own id ∉ c.freed ++ c.keys := by
  have honce := hinv.own_once id
  have hpos := List.count_pos_iff.mpr hmem
  simp only [held, List.count_append] at honce
  rw [← List.count_eq_zero, List.count_append]
  split at honce <;> omega

theorem Inv.own_cases (hinv : Inv c) {id : Nat} (hlt : id < c.allocated) :
    .own id ∈ c.frameNames.flatten ∨ .own id ∈ c.freed ++ c.keys := by
  have hmem : .own id ∈ c.freed ++ c.held := by
    rw [← List.count_pos_iff, hinv.own_once id, if_pos hlt]
    exact Nat.one_pos
  simp only [held, List.mem_append] at hmem ⊢
  rcases hmem with hfreed | hframe | hkey
  · exact Or.inr (Or.inl hfreed)
  · exact Or.inl hframe
  · exact Or.inr (Or.inr hkey)

/-- `excimer_log_destroy` frees what it should exactly if there is no truncation
marker and the engine keeps all the strings of the frames. -/
theorem disposed_iff (hinv : Inv c) :
    Disposed c c.destroy ↔ c.log.marker = none ∧
      ∀ id, .engine id ∈ c.frameNames.flatten → 0 < c.others (.engine id) := by
  have hcount := destroy_refcount hinv
  have hothers : c.destroy.others = c.others := by rw [destroy_eq hinv]
  have hallocated : c.destroy.allocated = c.allocated := by rw [destroy_eq hinv]
  have hfreed : c.destroy.freed = c.freed ++ c.keys := by rw [destroy_eq hinv]
  constructor
  · rintro ⟨-, hown, hzero⟩
    rw [hallocated, hfreed] at hown
    rw [hfreed] at hzero
    constructor
    · by_contra hmarker
      obtain ⟨id, hmem⟩ := hinv.marker.mpr hmarker
      obtain ⟨hlt, hnot⟩ := hinv.frame_own hmem
      exact hnot (hown id hlt)
    · intro id hmem
      by_contra hnone
      -- nobody else holds the string, so its count drops to zero unnoticed
      have hbalance := hinv.balanced (.engine id)
      have hnonneg := hinv.others_nonneg id
      have hpos := List.count_pos_iff.mpr hmem
      simp only [held, List.count_append] at hbalance
      rcases List.mem_append.mp (hzero (.engine id) (by omega) (by rw [hcount]; omega)) with
        hold | hkey
      · have := hinv.engine_freed id hold
        omega
      · exact hinv.engine_keys id hkey
  · rintro ⟨hmarker, halive⟩
    have hframes : ∀ id, .own id ∉ c.frameNames.flatten := fun id hmem =>
      hinv.marker.mp ⟨id, hmem⟩ hmarker
    refine ⟨fun id => by rw [hcount, hothers], fun id hlt => ?_, fun name hpos hzero => ?_⟩
    · rw [hallocated] at hlt
      rw [hfreed]
      exact (hinv.own_cases hlt).resolve_left (hframes id)
    · rw [hcount] at hzero
      rw [hfreed]
      have hmem : name ∈ c.held := by
        have hbalance := hinv.balanced name
        rw [← List.count_pos_iff]
        omega
      rcases List.mem_append.mp hmem with hframe | hkey
      · cases name with
        | engine id =>
            have := halive id hframe
            omega
        | own id => exact absurd hframe (hframes id)
      · exact List.mem_append_right _ hkey

end Destroy

/-- The references that a log takes are balanced, and what is left to free when it
is destroyed is freed, exactly if no stack was deeper than the limit and the
engine still holds the strings of all frames. -/
theorem strings_disposed_iff {memory : Log} {others : Nat → Int} (hothers : ∀ id, 0 ≤ others id)
    {actions : List Action} {c : CountedLog}
    (hrun : Transition.run step (init memory others) actions = some c) :
    (∀ id, c.destroy.refcount (.engine id) = c.destroy.others (.engine id)) ∧
      (Disposed c c.destroy ↔
        (∀ sample ∈ Log.samples memory.maxDepth (plainActions actions), sample.truncated = false) ∧
        ∀ id, .engine id ∈ c.frameNames.flatten → 0 < c.others (.engine id)) := by
  have hstart := init_inv memory hothers
  have hinv : Inv c := Transition.run_invariant Inv (fun _ _ _ => step_inv) hstart hrun
  have hmarker := Log.run_marker (Log.init_wellFormed memory) (run_plain hstart hrun)
  have hfresh : (Log.init memory).marker = none := rfl
  refine ⟨fun id => ?_, ?_⟩
  · rw [destroy_refcount hinv, destroy_eq hinv]
  · rw [disposed_iff hinv, hmarker]
    simp only [hfresh, true_and]
    rfl

/-- A call of a function without a class, whose two strings have neighbouring
numbers. -/
def namedCall (id : Nat) (name : Bytes) (lineno : UInt32) : NamedData where
  func := some ⟨2, ⟨id, Bytes.ofString "a.php", false⟩, none, some ⟨id + 1, name, false⟩, false, 1⟩
  lineno := lineno

/-- The second sample finds the frame of the first one. -/
def sampledTwice : List Action :=
  let stack := [namedCall 0 (Bytes.ofString "f") 3]
  [.add stack 1 10, .retain 0, .add stack 1 20]

theorem strings_disposed_iff_sampledTwice :
    ∃ c, Transition.run step (init Log.zero fun _ => 1) sampledTwice = some c ∧
      Disposed c c.destroy := by
  obtain ⟨c, hrun, hcheck⟩ := Transition.run_check step (init Log.zero fun _ => 1) sampledTwice
    (fun c => decide (c.frameNames.flatten = [.engine 0, .engine 1] ∧
      0 < c.others (.engine 0) ∧ 0 < c.others (.engine 1))) (by decide)
  obtain ⟨hnames, hfirst, hsecond⟩ := of_decide_eq_true hcheck
  refine ⟨c, hrun, (strings_disposed_iff (fun _ => by decide) hrun).2.mpr ⟨by decide, ?_⟩⟩
  intro id hmem
  rw [hnames] at hmem
  simp at hmem
  rcases hmem with rfl | rfl
  · exact hfirst
  · exact hsecond

/-- A stack of three frames with a limit of one. -/
def deepStack : List Action :=
  [.setMaxDepth 1,
   .add [namedCall 0 (Bytes.ofString "f") 3, namedCall 2 (Bytes.ofString "g") 5,
     namedCall 4 (Bytes.ofString "h") 7] 1 10]

/-- The filename of the truncation marker loses its only reference and is not
freed. -/
theorem deepStack_leaks :
    ∃ c, Transition.run step (init Log.zero fun _ => 1) deepStack = some c ∧
      c.refcount (.own 1) = 1 ∧ c.destroy.refcount (.own 1) = 0 ∧ .own 1 ∉ c.destroy.freed ∧
      ¬Disposed c c.destroy := by
  obtain ⟨c, hrun, hcheck⟩ := Transition.run_check step (init Log.zero fun _ => 1) deepStack
    (fun c => decide (c.refcount (.own 1) = 1 ∧ c.destroy.refcount (.own 1) = 0 ∧
      .own 1 ∉ c.destroy.freed)) (by decide)
  obtain ⟨hone, hzero, hkept⟩ := of_decide_eq_true hcheck
  refine ⟨c, hrun, hone, hzero, hkept, fun hdisposed => ?_⟩
  exact hkept (hdisposed.zero_freed (.own 1) (by omega) hzero)

end CountedLog

end Excimer
