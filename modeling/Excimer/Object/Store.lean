import Excimer.Lib.CountedHeap
import Excimer.Lib.Transition
import Excimer.Log.Export
import Excimer.Profiler.Basic

/-!
The objects of `excimer.c` and the references between them. A profiler holds its
log, an entry holds the log that it was taken from, and a reader, which is a log
object with its methods of `Iterator` or an iterator of a `foreach` loop, holds the
object of its current entry. So a log and its current entry may hold each other.
The value of `z_callback` is not one of these objects. All objects are made by the
functions of the extension, not by `clone`, `unserialize` or reflection.

`vars` are the references of everybody else: of PHP variables, of the arguments
and results of calls, of closures, arrays and dynamic properties, and `z_old_log` of
a function that waits for the flush callback. `ExcimerProfiler_dtor` is a flush whose
result is dropped, and so is the rotation of a full log.

PHP code runs between any two of the actions. It also runs inside of some functions:
when an object is freed, its dynamic properties go as well, and they may hold values
with destructors, and the warning that the callback is not callable runs the error
handler. What such a function has still to do is a `Task`, and the innermost function
goes on first. PHP code may run whenever a task is left; that no request is ended by a
fatal error in between is assumed.

An operation has no result when the code would use freed memory, take an object
for one of another class or follow a null pointer. Handles are not used again, so
that the use of a freed object is seen.
-/

namespace Excimer.ObjectStore

open CountedHeap

/-- The index and the cache `z_current` of an `ExcimerLog` object or of an
`ExcimerLog_iterator`. While `z_current` refers to an entry whose reference it has
given up, the reader is `stale`; no operation tests for that. -/
structure Reader where
  index : Int
  zCurrent : Option ℕ
  stale : Bool
  deriving DecidableEq, Repr

/-- What `ExcimerLog_new` and `ExcimerLog_get_iterator` set. -/
def Reader.start : Reader := ⟨0, none, false⟩

def Reader.refs (reader : Reader) : List ℕ :=
  if reader.stale then [] else reader.zCurrent.toList

inductive Node where
  /-- `ExcimerProfiler_obj` -/
  | profiler (zLog : ℕ)
  /-- `ExcimerLog_obj` -/
  | log (log : Log) (reader : Reader)
  /-- `ExcimerLogEntry_obj` -/
  | entry (zLog : ℕ) (index : Int)
  /-- `ExcimerLog_iterator` -/
  | iterator (data : ℕ) (reader : Reader)

/-- The references to other objects that an object gives up when it is freed, by
`ExcimerProfiler_free_object`, `ExcimerLog_free_object`, `ExcimerLogEntry_free_object`
or `ExcimerLog_iterator_dtor`. -/
def Node.refs : Node → List ℕ
  | .profiler zLog => [zLog]
  | .log _ reader => reader.refs
  | .entry zLog _ => [zLog]
  | .iterator data reader => reader.refs ++ [data]

/-- The functions that move a reader or clear its cache. -/
inductive Move where
  | next
  | rewind
  | invalidateCurrent
  deriving DecidableEq, Repr

/-- What a function has still to do after PHP code has run in the middle of it. -/
inductive Task where
  /-- `zval_ptr_dtor` -/
  | release (id : ℕ)
  /-- The part of `move` after the release of `z_current`. Its caller keeps the reader. -/
  | clear (reader : ℕ) (move : Move)
  /-- `ExcimerProfiler_stop` at the end of `ExcimerProfiler_flush`. The profiler is
  `held` unless the flush was called for an event. -/
  | stop (profiler : ℕ) (held : Bool)
  deriving DecidableEq, Repr

/-- The references that are given up at the end of a task. -/
def Task.refs : Task → List ℕ
  | .release id => [id]
  | .clear reader _ => [reader]
  | .stop profiler held => if held then [profiler] else []

section Operations

def profilerAt (h : Heap Node) (id : ℕ) : Option ℕ :=
  match h.value id with
  | some (.profiler zLog) => some zLog
  | _ => none

def logAt (h : Heap Node) (id : ℕ) : Option (Log × Reader) :=
  match h.value id with
  | some (.log log reader) => some (log, reader)
  | _ => none

def entryAt (h : Heap Node) (id : ℕ) : Option (ℕ × Int) :=
  match h.value id with
  | some (.entry zLog index) => some (zLog, index)
  | _ => none

/-- The log that a reader reads, and its position. -/
def readerAt (h : Heap Node) (id : ℕ) : Option (ℕ × Reader) :=
  match h.value id with
  | some (.log _ reader) => some (id, reader)
  | some (.iterator data reader) => some (data, reader)
  | _ => none

def setReader (h : Heap Node) (id : ℕ) (reader : Reader) : Option (Heap Node) :=
  match h.value id with
  | some (.log log _) => h.write id (.log log reader)
  | some (.iterator data _) => h.write id (.iterator data reader)
  | _ => none

/-- `ExcimerProfiler_new` -/
def profilerNew (h : Heap Node) (defaultMaxDepth : Int) (now : UInt64) : Heap Node × ℕ :=
  let log : Log :=
    { Log.init Log.zero with maxDepth := defaultMaxDepth, epoch := now, period := 100000000 }
  let withLog := h.alloc (.log log .start)
  (withLog.alloc (.profiler h.fresh), withLog.fresh)

/-- The log object of a profiler. -/
def attachedLog (h : Heap Node) (profiler : ℕ) : Option (ℕ × Log × Reader) :=
  (profilerAt h profiler).bind fun zLog => (logAt h zLog).map fun (log, reader) =>
    (zLog, log, reader)

/-- Change the log of a profiler. -/
def changeLog (h : Heap Node) (profiler : ℕ) (change : Log → Option Log) : Option (Heap Node) :=
  (attachedLog h profiler).bind fun (zLog, log, reader) =>
    (change log).bind fun next => h.write zLog (.log next reader)

/-- `ExcimerProfiler_flush` until PHP code runs, with the reference `zp_old_log`. After
the call of a callback it does not use the profiler any more. -/
def flush (h : Heap Node) (profiler : ℕ) : Option (Heap Node × ℕ) :=
  (attachedLog h profiler).bind fun (zLog, log, _) =>
    -- the reference moves from the profiler to the result
    (h.addRef zLog).bind fun copied =>
      (copied.delRef zLog).bind fun moved =>
        ((moved.alloc (.log (Profiler.replacement log) .start)).write profiler
          (.profiler moved.fresh)).map fun rotated => (rotated, zLog)

/-- `ExcimerLog_init_entry` -/
def initEntry (h : Heap Node) (zpLog : ℕ) (index : Int) : Option (Heap Node × Option ℕ) :=
  (logAt h zpLog).bind fun (log, _) =>
    match log.getEntry index with
    | none => some (h, none)
    | some _ => (h.addRef zpLog).map fun held => (held.alloc (.entry zpLog index), some held.fresh)

/-- `ExcimerLog_get_iterator` -/
def getIterator (h : Heap Node) (zpLog : ℕ) : Option (Heap Node × ℕ) :=
  (h.addRef zpLog).map fun held => (held.alloc (.iterator zpLog .start), held.fresh)

/-- `ExcimerLog::current` and `ExcimerLog_iterator_get_current_data`, until the value
is copied. -/
def loadCurrent (h : Heap Node) (id : ℕ) : Option (Heap Node × Option ℕ) :=
  (readerAt h id).bind fun (target, reader) =>
    (logAt h target).bind fun (log, _) =>
      if reader.zCurrent = none ∧ reader.index < log.getSize then
        (initEntry h target reader.index).bind fun (made, entry) =>
          (setReader made id { reader with zCurrent := entry }).map fun loaded => (loaded, entry)
      else some (h, reader.zCurrent)

/-- A copy of a value, made by `ZVAL_COPY`. -/
def zvalCopy (h : Heap Node) : Option ℕ → Option (Heap Node)
  | none => some h
  | some id => h.addRef id

/-- `zval_ptr_dtor`, up to the end of the first object that it frees, with the
references that are left to give up. -/
def zvalPtrDtor (h : Heap Node) : Option ℕ → Option (Heap Node × List ℕ)
  | none => some (h, [])
  | some id => h.unref Node.refs id

/-- `ZVAL_NULL(&z_current)` and the new position. -/
def clearCurrent (h : Heap Node) (id : ℕ) (move : Move) : Option (Heap Node) :=
  (readerAt h id).bind fun (target, reader) =>
    match move with
    | .next =>
        (logAt h target).bind fun (log, _) =>
          setReader h id
            ⟨if reader.index < log.getSize then reader.index + 1 else reader.index, none, false⟩
    | .rewind => setReader h id ⟨0, none, false⟩
    | .invalidateCurrent => setReader h id ⟨reader.index, none, false⟩

/-- The cached entry is released while `z_current` still refers to it. If that frees
the entry, PHP code can run before `z_current` is cleared. -/
def moveReader (h : Heap Node) (id : ℕ) (move : Move) : Option (Heap Node × List Task) :=
  (readerAt h id).bind fun (_, reader) =>
    (zvalPtrDtor h reader.zCurrent).bind fun (released, rest) =>
      if reader.zCurrent.any fun entry => (released.value entry).isNone then
        (setReader released id { reader with stale := true }).bind fun marked =>
          (marked.addRef id).map fun kept => (kept, rest.map .release ++ [.clear id move])
      else (clearCurrent released id move).map fun cleared => (cleared, [])

/-- `ExcimerLog::next` and `ExcimerLog_iterator_move_forward` -/
def next (h : Heap Node) (id : ℕ) : Option (Heap Node × List Task) := moveReader h id .next

/-- `ExcimerLog::rewind` and `ExcimerLog_iterator_rewind` -/
def rewind (h : Heap Node) (id : ℕ) : Option (Heap Node × List Task) := moveReader h id .rewind

/-- `ExcimerLog_iterator_invalidate_current` -/
def invalidateCurrent (h : Heap Node) (id : ℕ) : Option (Heap Node × List Task) :=
  moveReader h id .invalidateCurrent

/-- `ExcimerLog::offsetGet` -/
def offsetGet (h : Heap Node) (log : ℕ) (offset : Int) : Option (Heap Node × Option ℕ) :=
  (logAt h log).bind fun (backend, _) =>
    if offset < 0 ∨ offset ≥ backend.getSize then some (h, none) else initEntry h log offset

/-- What the methods of an `ExcimerLogEntry` return. -/
structure EntryData where
  /-- `getTimestamp`, before the division by 1e9. -/
  timestamp : UInt64
  eventCount : Int
  trace : List Log.FrameArray
  deriving DecidableEq, Repr

/-- `ExcimerLogEntry::getTimestamp`, `getEventCount` and `getTrace`. They do not test
whether there is such an entry. -/
def readEntry (h : Heap Node) (id : ℕ) : Option EntryData :=
  (entryAt h id).bind fun (zLog, index) =>
    (logAt h zLog).bind fun (log, _) =>
      (log.getEntry index).bind fun entry =>
        (log.traceToArray log.frames.length entry.frameIndex.toNat).map fun trace =>
          ⟨entry.timestamp - log.epoch, entry.eventCount, trace⟩

end Operations

structure State where
  heap : Heap Node
  vars : List ℕ
  /-- The innermost function comes first. -/
  tasks : List Task

def State.initial : State := ⟨.empty, [], []⟩

/-- The references that are not held by the objects. -/
def State.outside (s : State) : List ℕ := s.vars ++ s.tasks.flatMap Task.refs

inductive Action where
  | newProfiler (defaultMaxDepth : Int) (now : UInt64)
  /-- `ExcimerProfiler_event` until the sample is in the log. -/
  | sample (profiler : ℕ) (stack : List ExecuteData) (eventCount : Int) (now : UInt64)
  | setMaxDepth (profiler : ℕ) (depth : Int)
  | setPeriod (profiler : ℕ) (period : UInt64)
  | getLog (profiler : ℕ)
  /-- A flush by the method or the destructor, whose callers hold the profiler.
  `callable` is false when there is a callback that cannot be called. -/
  | flush (profiler : ℕ) (callable : Bool)
  /-- A flush by `ExcimerProfiler_event`. -/
  | rotate (profiler : ℕ) (callable : Bool)
  | getIterator (log : ℕ)
  | current (reader : ℕ)
  | next (reader : ℕ)
  | rewind (reader : ℕ)
  | invalidateCurrent (iterator : ℕ)
  | offsetGet (log : ℕ) (offset : Int)
  /-- A call of a method of an entry. -/
  | read (entry : ℕ)
  /-- PHP code copies a reference that it has. -/
  | copy (id : ℕ)
  /-- PHP code gives up a reference. -/
  | drop (id : ℕ)
  /-- PHP code returns to the innermost function, which goes on. -/
  | resume

/-- Give a value to PHP code. -/
def State.give (s : State) (h : Heap Node) (value : Option ℕ) : State :=
  { s with heap := h, vars := value.toList ++ s.vars }

/-- PHP code runs in the middle of a function. -/
def State.enter (s : State) (h : Heap Node) (tasks : List Task) : State :=
  { s with heap := h, tasks := tasks ++ s.tasks }

/-- What PHP code can do: it calls a method of an object that it has, and only a
method of the class of the object. A profiler that is alive is sampled, until the
index of a frame gets too large and a fatal error ends the request. -/
def permitted (s : State) : Action → Bool
  | .newProfiler _ _ => true
  | .sample profiler stack eventCount now =>
      (profilerAt s.heap profiler).isSome &&
        (attachedLog s.heap profiler).all fun (_, log, _) => (log.add stack eventCount now).isSome
  | .rotate profiler _ => (profilerAt s.heap profiler).isSome
  | .setMaxDepth profiler _ | .setPeriod profiler _ | .getLog profiler | .flush profiler _ =>
      s.vars.contains profiler && (profilerAt s.heap profiler).isSome
  | .getIterator log | .offsetGet log _ => s.vars.contains log && (logAt s.heap log).isSome
  | .current reader | .next reader | .rewind reader | .invalidateCurrent reader =>
      s.vars.contains reader && (readerAt s.heap reader).isSome
  | .read entry => s.vars.contains entry && (entryAt s.heap entry).isSome
  | .copy id | .drop id => s.vars.contains id
  | .resume => !s.tasks.isEmpty

/-- The innermost function goes on. -/
def resume (s : State) : Option State :=
  match s.tasks with
  | [] => none
  | .release id :: tasks =>
      (zvalPtrDtor s.heap (some id)).map fun (h, rest) =>
        { s with heap := h, tasks := rest.map .release ++ tasks }
  | .clear reader move :: tasks =>
      (clearCurrent s.heap reader move).map fun h =>
        { s with heap := h, tasks := .release reader :: tasks }
  | .stop profiler held :: tasks =>
      (profilerAt s.heap profiler).map fun _ =>
        { s with tasks := if held then .release profiler :: tasks else tasks }

def perform (s : State) : Action → Option State
  | .newProfiler defaultMaxDepth now =>
      let (h, profiler) := profilerNew s.heap defaultMaxDepth now
      some (s.give h (some profiler))
  | .sample profiler stack eventCount now =>
      (changeLog s.heap profiler fun log => log.add stack eventCount now).map (s.give · none)
  | .setMaxDepth profiler depth =>
      (changeLog s.heap profiler fun log => some (log.setMaxDepth depth)).map (s.give · none)
  | .setPeriod profiler period =>
      (changeLog s.heap profiler fun log => some { log with period := period }).map (s.give · none)
  | .getLog profiler =>
      (profilerAt s.heap profiler).bind fun zLog =>
        (zvalCopy s.heap (some zLog)).map (s.give · (some zLog))
  | .flush profiler callable =>
      (flush s.heap profiler).bind fun (h, old) =>
        if callable then some (s.give h (some old))
        else (h.addRef profiler).map fun kept =>
          (s.give kept (some old)).enter kept [.stop profiler true]
  | .rotate profiler callable =>
      (flush s.heap profiler).map fun (h, old) =>
        (s.give h (some old)).enter h (if callable then [] else [.stop profiler false])
  | .getIterator log => (getIterator s.heap log).map fun (h, iterator) => s.give h (some iterator)
  | .current reader =>
      (loadCurrent s.heap reader).bind fun (h, value) => (zvalCopy h value).map (s.give · value)
  | .next reader => (next s.heap reader).map fun (h, tasks) => s.enter h tasks
  | .rewind reader => (rewind s.heap reader).map fun (h, tasks) => s.enter h tasks
  | .invalidateCurrent iterator =>
      (invalidateCurrent s.heap iterator).map fun (h, tasks) => s.enter h tasks
  | .offsetGet log offset => (offsetGet s.heap log offset).map fun (h, value) => s.give h value
  | .read entry => (readEntry s.heap entry).map fun _ => s
  | .copy id => (zvalCopy s.heap (some id)).map (s.give · (some id))
  | .drop id =>
      (zvalPtrDtor s.heap (some id)).map fun (h, rest) =>
        ({ s with vars := s.vars.erase id }).enter h (rest.map .release)
  | .resume => resume s

def step (s : State) (action : Action) : Option State :=
  if permitted s action then perform s action else none

def Reachable : State → Prop := Transition.Reachable step (· = State.initial)

end Excimer.ObjectStore
