import Excimer.Lib.Bytes
import Excimer.Lib.OrderedMap
import Excimer.Lib.Transition
import Mathlib.Algebra.Order.Ring.Int

/-!
The log of `excimer_log.c`. A sample is stored as the index of its innermost
frame, and every frame names the index of its caller, so stacks share their
outer parts. `reverse_frames` maps a key made of the filename, the line and the
caller's index to the index of the frame that was first stored under it.

Functions that may end the request with a fatal error return an `Option`.
Sizes and event counts are unbounded; indexes, line numbers and timestamps have
the widths of the source.
-/

namespace Excimer

/-- What the log reads of a `zend_function`. The names of `common.scope` and of
the function may be null. -/
structure ZendFunction where
  type : UInt8
  filename : Bytes
  scope : Option (Option Bytes)
  functionName : Option Bytes
  /-- The bit `ZEND_ACC_CLOSURE` of `op_array.fn_flags`. -/
  isClosure : Bool
  lineStart : UInt32
  deriving DecidableEq, Repr

/-- One element of the chain of `prev_execute_data`. A stack is a list of them,
innermost first, and a null pointer is the empty list. -/
structure ExecuteData where
  func : Option ZendFunction
  /-- `opline->lineno` -/
  lineno : UInt32
  deriving DecidableEq, Repr

/-- `ZEND_USER_CODE` -/
def zendUserCode (type : UInt8) : Bool :=
  type &&& 1 == 0

/-- The function of user code that a stack element executes. -/
def ExecuteData.userFunction (current : ExecuteData) : Option ZendFunction :=
  current.func.filter fun func => zendUserCode func.type

/-- `excimer_safe_uint32`, which raises a fatal error when out of range. -/
def safeUint32 (i : Int) : Option UInt32 :=
  if i < 0 ∨ i > 4294967295 then none else some (UInt32.ofNat i.toNat)

/-- `excimer_log_frame` -/
structure Log.Frame where
  filename : Option Bytes
  lineno : UInt32
  closureLine : UInt32
  className : Option Bytes
  functionName : Option Bytes
  prevIndex : UInt32
  deriving DecidableEq, Repr

/-- `excimer_log_entry` -/
structure Log.Entry where
  frameIndex : UInt32
  eventCount : Int
  timestamp : UInt64
  deriving DecidableEq, Repr

/-- `excimer_log` -/
structure Log where
  entries : List Log.Entry
  frames : List Log.Frame
  reverseFrames : OrderedMap Bytes Nat
  maxDepth : Int
  epoch : UInt64
  period : UInt64
  eventCount : Int

namespace Log

/-- `excimer_log_truncated_name` -/
def truncatedName : Bytes := Bytes.ofString "excimer_truncated"

/-- `excimer_log_fake_filename` -/
def fakeFilename : Bytes := Bytes.ofString "excimer fake file"

/-- A frame in zeroed memory. -/
def Frame.zero : Frame where
  filename := none
  lineno := 0
  closureLine := 0
  className := none
  functionName := none
  prevIndex := 0

/-- A log in zeroed memory. -/
def zero : Log where
  entries := []
  frames := []
  reverseFrames := OrderedMap.empty
  maxDepth := 0
  epoch := 0
  period := 0
  eventCount := 0

/-- `excimer_log_init`. The fields it does not set keep what the memory holds. -/
def init (memory : Log) : Log :=
  { memory with
    entries := []
    frames := [Frame.zero]
    reverseFrames := OrderedMap.empty
    epoch := 0
    eventCount := 0 }

/-- `excimer_log_set_max_depth` -/
def setMaxDepth (log : Log) (depth : Int) : Log :=
  { log with maxDepth := depth }

/-- `excimer_log_copy_options` -/
def copyOptions (dest src : Log) : Log :=
  { dest with maxDepth := src.maxDepth, epoch := src.epoch, period := src.period }

/-- Store a new frame at the end of `frames` and its index under a key. -/
def appendFrame (log : Log) (key : Bytes) (frame : Frame) : Log :=
  { log with
    reverseFrames := log.reverseFrames.add key log.frames.length
    frames := log.frames ++ [frame] }

/-- What looking up a frame and adding it when it is new have in common in
`excimer_log_get_truncation_marker` and `excimer_log_find_or_add_frame`. -/
def lookupOrAppend (log : Log) (key : Bytes) (frame : Frame) : Option (Log × UInt32) :=
  match log.reverseFrames.find key with
  | some index => (safeUint32 index).map fun i => (log, i)
  | none => (safeUint32 log.frames.length).map fun i => (log.appendFrame key frame, i)

/-- The frame that stands for the callers beyond the depth limit. -/
def truncationFrame : Frame where
  filename := some fakeFilename
  lineno := 1
  closureLine := 0
  className := none
  functionName := some truncatedName
  prevIndex := 0

/-- `excimer_log_get_truncation_marker` -/
def getTruncationMarker (log : Log) : Option (Log × UInt32) :=
  log.lookupOrAppend truncatedName truncationFrame

/-- The key for the reverse lookup. The conversion `%d` reads the two unsigned
numbers as signed ones. -/
def frameKey (filename : Bytes) (lineno prevIndex : UInt32) : Bytes :=
  filename ++ 0 :: Bytes.decimal lineno.toInt32.toInt ++
    0 :: Bytes.decimal prevIndex.toInt32.toInt

/-- The frame that is recorded for a call of a user function. -/
def userFrame (func : ZendFunction) (lineno prevIndex : UInt32) : Frame where
  filename := some func.filename
  lineno := lineno
  closureLine := if func.isClosure then func.lineStart else 0
  className := func.scope.join
  functionName := func.functionName
  prevIndex := prevIndex

/-- The second half of `excimer_log_find_or_add_frame`: the caller's index is
known, and the frame of the current element is looked up or added. -/
def recordFrame (log : Log) (current : ExecuteData) (prevIndex : UInt32) : Option (Log × UInt32) :=
  match current.userFunction with
  | none => some (log, prevIndex)
  | some func =>
      log.lookupOrAppend (frameKey func.filename current.lineno prevIndex)
        (userFrame func current.lineno prevIndex)

/-- `excimer_log_find_or_add_frame` -/
def findOrAddFrame (log : Log) : List ExecuteData → Int → Option (Log × UInt32)
  | [], _ => some (log, 0)
  | [current], _ => log.recordFrame current 0
  | current :: prev :: outer, depth =>
      let caller :=
        if log.maxDepth ≠ 0 ∧ depth ≥ log.maxDepth then log.getTruncationMarker
        else log.findOrAddFrame (prev :: outer) (depth + 1)
      caller.bind fun (next, prevIndex) => next.recordFrame current prevIndex

/-- `excimer_log_add` -/
def add (log : Log) (stack : List ExecuteData) (eventCount : Int) (timestamp : UInt64) :
    Option Log :=
  (log.findOrAddFrame stack 0).map fun (next, frameIndex) =>
    { next with
      entries := next.entries ++ [⟨frameIndex, eventCount, timestamp⟩]
      eventCount := next.eventCount + eventCount }

/-- `excimer_log_get_size` -/
def getSize (log : Log) : Nat := log.entries.length

/-- `excimer_log_get_entry` -/
def getEntry (log : Log) (i : Int) : Option Entry :=
  if i ≥ 0 ∧ i < log.entries.length then log.entries[i.toNat]? else none

/-- `excimer_log_get_frame` -/
def getFrame (log : Log) (i : Int) : Option Frame :=
  if i > 0 ∧ i < log.frames.length then log.frames[i.toNat]? else none

/-- The calls that change a log: samples, and changes of the depth limit in
between. -/
inductive Action where
  | add (stack : List ExecuteData) (eventCount : Int) (timestamp : UInt64)
  | setMaxDepth (depth : Int)

def step (log : Log) : Action → Option Log
  | .add stack eventCount timestamp => log.add stack eventCount timestamp
  | .setMaxDepth depth => some (log.setMaxDepth depth)

end Log

end Excimer
