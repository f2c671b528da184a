import AgentLoop.Trace.Basic

/-!
# Recording traces

A recorder keeps the traces of the latest runs, at most a fixed number of them.  To make room for
a new one it drops the oldest completed trace, or the oldest of all if none is completed.  Its
totals count everything that was ever reported, whether the trace is still kept or not.

* `TraceEvent` is what is reported to a recorder, `TraceRecorder.apply` takes one report.
* `TraceRecorder.find?`, `recent` and the totals answer questions.
-/

namespace AgentLoop

/-- What is reported about a trace. -/
inductive TraceEvent where
  | start (traceId invocationId : String)
  | step (traceId : String) (iteration : Nat)
  | modelCall (traceId model : String) (usage : Option Usage) (toolCalls : Nat)
  | action (traceId : String) (record : ActionRecord)
  | finish (traceId outcome : String)
  deriving DecidableEq, Repr, Inhabited

/-- The trace that a report is about. -/
def TraceEvent.traceId : TraceEvent → String
  | start id _ => id
  | step id _ => id
  | modelCall id .. => id
  | action id _ => id
  | finish id _ => id

/-- The traces kept, oldest first, and the totals. -/
structure TraceRecorder where
  maxTraces : Nat
  traces : List LoopTrace
  totals : TraceTotals
  deriving DecidableEq, Repr

namespace TraceRecorder

/-- A recorder for at most some traces, but always for one. -/
def ofLimit (maxTraces : Nat) : TraceRecorder := ⟨max maxTraces 1, [], ⟨0, 0, 0, 0, 0⟩⟩

/-- The number of traces that a recorder keeps unless told otherwise. -/
def defaultLimit : Nat := 100

/-- The traces without the oldest completed one, or without the oldest if none is completed. -/
def dropOne (traces : List LoopTrace) : List LoopTrace :=
  if traces.any LoopTrace.isComplete then traces.eraseP LoopTrace.isComplete else traces.drop 1

/-- The traces with some dropped until there are fewer than the limit; at most `excess` are
dropped. -/
def prune (limit : Nat) : Nat → List LoopTrace → List LoopTrace
  | 0, traces => traces
  | excess + 1, traces =>
    if limit ≤ traces.length then prune limit excess (dropOne traces) else traces

/-- Changes the first trace of the given id. -/
def change (id : String) (f : LoopTrace → LoopTrace) : List LoopTrace → List LoopTrace
  | [] => []
  | t :: traces => if t.id = id then f t :: traces else t :: change id f traces

/-- The trace of the given id. -/
def find? (r : TraceRecorder) (id : String) : Option LoopTrace :=
  r.traces.find? fun t => t.id == id

/-- The trace of a run. -/
def forInvocation? (r : TraceRecorder) (invocationId : String) : Option LoopTrace :=
  r.traces.find? fun t => t.invocationId == invocationId

/-- The latest traces, newest first. -/
def recent (r : TraceRecorder) (limit : Nat) : List LoopTrace :=
  r.traces.reverse.take limit

/-- The totals after a report. -/
def count (totals : TraceTotals) : TraceEvent → TraceTotals
  | .start .. => { totals with traces := totals.traces + 1 }
  | .modelCall _ _ usage _ =>
    { totals with
      modelCalls := totals.modelCalls + 1
      tokens := totals.tokens + tokensOf usage }
  | .action _ record =>
    { totals with
      actions := totals.actions + 1
      failedActions := totals.failedActions + if record.status.isSuccess then 0 else 1 }
  | _ => totals

/-- A trace after a report about it. -/
def record (time : Timestamp) (event : TraceEvent) (t : LoopTrace) : LoopTrace :=
  match event with
  | .start .. => t
  | .step _ iteration => t.addStep iteration time
  | .modelCall _ model usage toolCalls =>
    t.changeStep (fun s => { s with modelCall := some ⟨model, usage, toolCalls⟩ }) time
  | .action _ report =>
    t.changeStep (fun s => { s with actions := s.actions ++ [.ofRecord report time] }) time
  | .finish _ outcome => t.finish outcome time

/-- Takes one report.  A report about a trace that is not kept only counts. -/
def apply (r : TraceRecorder) (time : Timestamp) (event : TraceEvent) : TraceRecorder :=
  { r with
    traces :=
      match event with
      | .start id invocationId =>
        prune r.maxTraces r.traces.length r.traces ++ [.begin id invocationId time]
      | event => change event.traceId (record time event) r.traces
    totals := count r.totals event }

end TraceRecorder

end AgentLoop
