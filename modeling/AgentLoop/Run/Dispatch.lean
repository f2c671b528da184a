import AgentLoop.Arguments
import AgentLoop.Run.Controller

/-!
# Dispatching tool calls

The calls of a reply are dispatched strictly in order, one at a time.  What becomes of a call is
its fate, of which there are five: its arguments cannot be read, the gate denies it, the budget
blocks it, it is cancelled while it is executed, or its execution ends, in time or not.

Dispatching a call has two halves.  `judge` asks the gate, the budget and the executor, in this
order and only as far as need be, and finds the fate.  `settle` does what the fate calls for: it
audits the call, answers it in the conversation, counts it, and tells observer and tracer.

* `Fate` with its `status`, `content` and `audited` parts is what the two halves share.
* `dispatchCall` is one call, `dispatchEach` a list of calls.
* `dispatchBatch` is a whole reply: calls beyond the cap are answered by a request to issue them
  again, and when the run stops every open call is answered too.
-/

namespace AgentLoop

/-- What becomes of a dispatched call. -/
inductive Fate where
  /-- Its arguments are no JSON object. -/
  | unreadable (error : ArgumentsError)
  /-- The gate denied it. -/
  | denied (reason : String)
  /-- The gate allowed it, and the budget blocked it. -/
  | blocked (arguments : JsonObject) (reason : String)
  /-- The run was cancelled before its execution ended. -/
  | cancelled (arguments : JsonObject)
  /-- Its execution ended in time. -/
  | ended (arguments : JsonObject) (outcome : ToolOutcome)
  /-- Its execution took too long. -/
  | timedOut (arguments : JsonObject) (limit : Nat)

namespace Fate

/-- The status of a call with this fate. -/
def status : Fate → ActionStatus
  | unreadable _ => .invalidArguments
  | denied _ => .denied
  | blocked .. => .blocked
  | cancelled _ => .cancelled
  | ended _ outcome => if outcome.succeeded then .succeeded else .failed
  | timedOut .. => .timedOut

/-- The outcome of an authorized call, with its arguments; nothing for a call that the gate did
not allow. -/
def audited (tool : String) : Fate → Option (JsonObject × ToolOutcome)
  | unreadable _ | denied _ => none
  | blocked arguments reason => some (arguments, .failure s!"not executed: {reason}")
  | cancelled arguments => some (arguments, .cancelled)
  | ended arguments outcome => some (arguments, outcome)
  | timedOut arguments limit => some (arguments, .failure s!"tool '{tool}' timed out after {limit}ms")

/-- What is told about a call with this fate, to observer and tracer, and, unless the budget
blocked it, to the model. -/
def content (tool : String) : Fate → String
  | unreadable error =>
    s!"Error: invalid arguments for tool '{tool}': {error.message}. Send the arguments as a JSON object."
  | denied reason => s!"Tool call denied: {reason}"
  | blocked _ reason => reason
  | cancelled _ => ToolOutcome.cancelled.content
  | ended _ outcome => outcome.content
  | timedOut _ limit => (ToolOutcome.failure s!"tool '{tool}' timed out after {limit}ms").content

/-- Counts a call with this fate. -/
def count (tool : String) (fate : Fate) (s : LoopState) : LoopState :=
  match fate.status with
  | .succeeded => s.recordSuccess tool
  | .blocked | .cancelled => s
  | _ => s.recordFailure

/-- The remark made before a call with this fate is settled. -/
def remarkBefore (call : ToolCall) : Fate → Option Remark
  | unreadable error => some (.unreadableArguments call error.message)
  | denied reason => some (.callDenied call reason)
  | blocked _ reason => some (.toolBudgetExhausted call (.blocked reason))
  | _ => none

/-- The remark made after a call with this fate was settled. -/
def remarkAfter (call : ToolCall) : Fate → Option Remark
  | ended _ outcome =>
    if outcome.succeeded then some (.callSucceeded call) else some (.callFailed call .failed)
  | timedOut .. => some (.callFailed call .timedOut)
  | _ => none

end Fate

/-- The answer to a call that the cap on calls defers. -/
def deferralText (cap : Nat) : String :=
  s!"Tool call deferred: at most {cap} tool calls are executed per turn. " ++
    "Re-issue this call in a later turn if it is still needed."

/-- The answer to a call that is open when the run stops. -/
def closingText (reason : TerminationReason) : String :=
  s!"Tool call not executed: loop terminated ({reason.name})"

/-- The answer to a call that is open when the run is cancelled. -/
def cancellationText : String := "Tool call not executed: loop cancelled"

namespace Controller

variable {M G B X : Type} (c : Controller M G B X) (inv : Invocation)

/-- The context of a call. -/
def callContext (call : ToolCall) : ExecutionContext :=
  c.resolver call (c.contextOf inv)

/-! ## Finding the fate of a call -/

/-- Executes an authorized call that the budget allows. -/
def execute (call : ToolCall) (arguments : JsonObject) (w : World M G B X) :
    Fate × World M G B X × Journal :=
  let w := c.arrived w
  if inv.cancel.fired w.now then (.cancelled arguments, w, [])
  else
    let context := c.callContext inv call
    let (pending, tools) := c.executor.execute call.name arguments context w.tools
    let w := { w with tools }
    let journal := [⟨w.now, .executed call.name arguments context⟩]
    let limit := c.config.toolCallTimeoutMs
    match await inv.cancel (some limit) w.now pending.delay with
    | .done time => (.ended arguments pending.result, { w with now := time }, journal)
    | .timedOut time => (.timedOut arguments limit, { w with now := time }, journal)
    | .cancelled time => (.cancelled arguments, { w with now := time }, journal)
    | .forever => (.timedOut arguments limit, w, journal)

/-- Asks the budget about an authorized call. -/
def askBudget (call : ToolCall) (arguments : JsonObject) (w : World M G B X) :
    Fate × World M G B X × Journal :=
  let (decision, budget) := c.budget.checkTool w.now call.name arguments w.budget
  let w := { w with budget }
  let checked : Entry := ⟨w.now, .budgetChecked (.tool call.name arguments) decision⟩
  match decision with
  | .blocked reason => (.blocked arguments reason, w, [checked])
  | .allowed =>
    let (fate, w, journal) := c.execute inv call arguments w
    (fate, w, checked :: journal)

/-- Asks the gate about a call whose arguments could be read. -/
def askGate (call : ToolCall) (arguments : JsonObject) (w : World M G B X) :
    Fate × World M G B X × Journal :=
  let context := c.callContext inv call
  let (decision, gate) := c.gate.authorize w.now call.name arguments context context.autonomy w.gate
  let w := { w with gate }
  let decided : Entry := ⟨w.now, .authorized call.name arguments context decision⟩
  match decision with
  | .denied reason => (.denied reason, w, [decided])
  | .allowed =>
    let (fate, w, journal) := c.askBudget inv call arguments w
    (fate, w, decided :: journal)

/-- Finds the fate of a call. -/
def judge (call : ToolCall) (w : World M G B X) : Fate × World M G B X × Journal :=
  match Arguments.read call.arguments with
  | .error error => (.unreadable error, w, [])
  | .ok arguments => c.askGate inv call arguments w

/-! ## Settling a call -/

/-- Remarks as entries of the journal. -/
def remarks (now : Nat) (remark : Option Remark) : Journal :=
  remark.toList.map fun r => ⟨now, .remarked r⟩

/-- Tells the gate what became of an authorized call. -/
def auditCall (call : ToolCall) (fate : Fate) (w : World M G B X) : World M G B X × Journal :=
  match fate.audited call.name with
  | none => (w, [])
  | some (arguments, outcome) =>
    let context := c.callContext inv call
    ({ w with gate := c.gate.audit w.now call.name arguments context outcome w.gate },
      [⟨w.now, .audited call.name arguments context outcome⟩])

/-- Answers a call in the conversation.  A blocked call stays open until the run stops; when the
run is cancelled the calls after it are answered too. -/
def answerCall (now : Nat) (call : ToolCall) (fate : Fate) (t : Transcript) :
    Except TranscriptError Transcript :=
  let stamps := c.stamps inv now
  match fate with
  | .blocked .. => .ok t
  | .cancelled _ =>
    (t.pushToolResult stamps call.id (fate.content call.name)).map fun t =>
      t.closePending stamps cancellationText
  | _ => t.pushToolResult stamps call.id (fate.content call.name)

/-- What observer and tracer are told about a call that took some time. -/
def reportCall (now : Nat) (iteration : Nat) (call : ToolCall) (fate : Fate) (durationMs : Nat) :
    Journal :=
  let content := fate.content call.name
  let observation :=
    Observation.of .toolCall content
      [("invocation_id", .str inv.id), ("iteration", .nat iteration), ("tool", .str call.name),
        ("call_id", .str call.id), ("status", .str fate.status.name),
        ("duration_ms", .nat durationMs)]
      (c.epoch.addMillis now)
  let record : ActionRecord :=
    { callId := call.id
      toolName := call.name
      status := fate.status
      detail := if fate.status.isSuccess || content = "" then none else some content
      durationMs }
  [⟨now, .observed observation⟩, ⟨now, .traced (.action inv.traceId record)⟩]

/-- How the run flows on after a call. -/
def flowAfter (fate : Fate) (s : LoopState) : Flow :=
  match fate.status with
  | .succeeded => .goOn
  | .cancelled => .cancelled
  | .blocked => .stop .budgetExceeded []
  | _ =>
    match stopReason? c.config s .toolFailed with
    | some reason => .stop reason []
    | none => .goOn

/-- Does what the fate of a call calls for; the call was dispatched at the time `started`. -/
def settle (call : ToolCall) (started : Nat) (fate : Fate) (s : Stand M G B X) :
    Stretch M G B X :=
  let now := s.world.now
  let before := remarks now (fate.remarkBefore call)
  let (world, audited) := c.auditCall inv call fate s.world
  match c.answerCall inv now call fate s.state.transcript with
  | .error error => ⟨⟨s.state, world⟩, before ++ audited, .failed (.transcript error)⟩
  | .ok transcript =>
    let state := fate.count call.name { s.state with transcript }
    let report := c.reportCall inv now state.iterations call fate (now - started)
    ⟨⟨state, world⟩, before ++ audited ++ report ++ remarks now (fate.remarkAfter call),
      c.flowAfter fate state⟩

/-! ## Calls in order -/

/-- Dispatches one call. -/
def dispatchCall (call : ToolCall) (s : Stand M G B X) : Stretch M G B X :=
  let (fate, world, asked) := c.judge inv call s.world
  (c.settle inv call s.world.now fate { s with world }).after asked

/-- Dispatches calls one after the other, as long as the run goes on. -/
def dispatchEach : List ToolCall → Stand M G B X → Stretch M G B X
  | [], s => ⟨s, [], .goOn⟩
  | call :: calls, s => (c.dispatchCall inv call s).andThen (dispatchEach calls)

/-- Answers calls one after the other by a request to issue them again. -/
def deferEach : List ToolCall → Stand M G B X → Stretch M G B X
  | [], s => ⟨s, [], .goOn⟩
  | call :: calls, s =>
    match s.state.transcript.pushToolResult (c.stamps inv s.world.now) call.id
        (deferralText c.config.maxToolCallsPerIteration) with
    | .error error => ⟨s, [], .failed (.transcript error)⟩
    | .ok transcript => deferEach calls (s.withTranscript transcript)

/-- Answers every open call when the run stops within a batch. -/
def closeBatch (batch : Stretch M G B X) : Stretch M G B X :=
  match batch.flow with
  | .stop reason output =>
    let s := batch.stand
    let t := s.state.transcript
    let closed := t.closePending (c.stamps inv s.world.now) (closingText reason)
    ⟨s.withTranscript closed,
      batch.journal ++ [s.entry (.remarked (.closedCalls t.pending.length reason))],
      .stop reason output⟩
  | _ => batch

/-- Dispatches the calls of a reply: those below the cap are dispatched, the others deferred. -/
def dispatchBatch (calls : List ToolCall) (s : Stand M G B X) : Stretch M G B X :=
  let iteration := s.state.iterations
  let cap := c.config.maxToolCallsPerIteration
  let accepted := calls.take cap
  let deferred := calls.drop cap
  let opening := [s.entry (.remarked (.executingCalls iteration calls.length deferred.length))]
  ((c.closeBatch inv (c.dispatchEach inv accepted s)).andThen fun s =>
    let remark :=
      if deferred.isEmpty then []
      else [s.entry (.remarked (.limitReached iteration deferred.length cap))]
    (c.deferEach inv deferred s).after remark).after opening

end Controller

end AgentLoop
