import Excimer.Log.Basic

/-!
The profiler object of `excimer.c`, as far as its logs are concerned. Sampled
PHP code includes the code of a running flush callback, so events and calls of
methods nest: the rest of a function that has called back into PHP waits in
`running` until that code returns. An event may occur, and a method may be
called, whenever PHP code runs.
-/

namespace Excimer

/-- PHP code that `ExcimerProfiler_flush` has started and waits for. -/
inductive Profiler.Running where
  /-- The flush callback, with the log that was passed to it. -/
  | callback (callback : Nat) (log : Nat)
  /-- An error handler for the warning that the callback is not callable. -/
  | warning
  deriving DecidableEq, Repr

/-- `ExcimerProfiler_obj` together with the `ExcimerLog` objects that were made
for it. -/
structure Profiler where
  /-- The log objects, in the order of their creation. -/
  logs : List Log
  /-- `z_log` -/
  current : Nat
  /-- The logs that `ExcimerProfiler_flush` has returned, in rotation order. -/
  detached : List Nat
  /-- `z_callback`, or nothing when it is null. -/
  callback : Option Nat
  maxSamples : Int
  /-- The log that `ExcimerProfiler_event` has added to and not tested yet. -/
  recording : Option Nat
  running : List Profiler.Running

namespace Profiler

/-- `ExcimerProfiler_new`, with the setting of `excimer.default_max_depth` and
the time of the creation. The default period is 0.1 s. -/
def new (defaultMaxDepth : Int) (now : UInt64) : Profiler where
  logs :=
    [{ Log.init Log.zero with maxDepth := defaultMaxDepth, epoch := now, period := 100000000 }]
  current := 0
  detached := []
  callback := none
  maxSamples := 0
  recording := none
  running := []

/-- Change the attached log. -/
def withLog (p : Profiler) (log : Log) : Profiler :=
  { p with logs := p.logs.set p.current log }

/-- The log that replaces one that is rotated out. -/
def replacement (log : Log) : Log :=
  (Log.init Log.zero).copyOptions log

/-- `ExcimerProfiler_flush` up to the start of PHP code. The callback may turn
out not to be callable any more. -/
def flush (p : Profiler) (callable : Bool) : Option Profiler :=
  (p.logs[p.current]?).map fun log =>
    { p with
      logs := p.logs ++ [replacement log]
      current := p.logs.length
      detached := p.detached ++ [p.current]
      running :=
        match p.callback with
        | none => p.running
        | some callback =>
            if callable then .callback callback p.current :: p.running
            else .warning :: p.running }

/-- The condition under which an event rotates the log. The comparison with
`entries_size` reads `max_samples` as unsigned. -/
def full (p : Profiler) (log : Log) : Bool :=
  decide (p.maxSamples ≠ 0 ∧ (p.maxSamples % 2 ^ 64).toNat ≤ log.getSize)

inductive Action where
  /-- `ExcimerProfiler_event` until the sample is in the log, with the stack of
  the engine and the time of the clock. -/
  | event (stack : List ExecuteData) (eventCount : Int) (now : UInt64)
  /-- The rest of `ExcimerProfiler_event`. -/
  | test (callable : Bool)
  /-- The PHP code started last returns. -/
  | ret
  | flush (callable : Bool)
  | setFlushCallback (callback : Nat) (callable : Bool) (maxSamples : Int)
  | clearFlushCallback
  | setMaxDepth (depth : Int)
  /-- The argument in nanoseconds. -/
  | setPeriod (period : UInt64)

/-- What happens while PHP code runs. -/
def phpStep (p : Profiler) : Action → Option Profiler
  | .event stack eventCount now =>
      (p.logs[p.current]?).bind fun log =>
        (log.add stack eventCount now).map fun next =>
          { p.withLog next with recording := some p.current }
  | .test _ => none
  | .ret =>
      match p.running with
      | [] => none
      | _ :: rest => some { p with running := rest }
  | .flush callable => p.flush callable
  | .setFlushCallback callback callable maxSamples =>
      if callable then some { p with callback := some callback, maxSamples := maxSamples }
      else some p
  | .clearFlushCallback => some { p with callback := none, maxSamples := 0 }
  | .setMaxDepth depth =>
      (p.logs[p.current]?).map fun log => p.withLog (log.setMaxDepth depth)
  | .setPeriod period =>
      (p.logs[p.current]?).map fun log => p.withLog { log with period := period }

def step (p : Profiler) (action : Action) : Option Profiler :=
  match p.recording with
  | none => p.phpStep action
  | some id =>
      match action with
      | .test callable =>
          (p.logs[id]?).bind fun log =>
            let returned := { p with recording := none }
            if p.full log then returned.flush callable else some returned
      | _ => none

end Profiler

end Excimer
