import AgentLoop.Answer
import AgentLoop.Run.Dispatch

/-!
# Runs

A run goes in turns.  A turn asks the iteration budget and then the model; a reply with calls is
dispatched, and a reply that is only a text is either to be confirmed or accepted; at the end of a
turn the run may have to stop.  The number of turns is bounded by the configuration, so a run is
recursion on the turns that are left.

* `turn` is one turn, made of `askModel`, `takeReply` and `closeTurn`; `turns` is all of them.
* `run` is a whole run: it takes over the messages it begins with, and reports to the tracer how
  it began and how it ended.
* `RunReport` is what comes of it: how it ended, the world after it, and the journal.
-/

namespace AgentLoop

/-- The user message that asks for a confirmation. -/
def confirmationPrompt : String :=
  "Before finishing, verify all parts of the task are complete and all results are checked " ++
    "before restating your answer."

/-- How a run ended. -/
inductive Ending where
  | finished (result : LoopResult)
  | failed (error : LoopError)
  /-- The model never replies and nobody cancels: the run does not end. -/
  | stalled
  deriving DecidableEq, Repr

/-- What comes of a run. -/
structure RunReport (M G B X : Type) where
  ending : Ending
  world : World M G B X
  journal : Journal

/-- What comes of asking the model: a reply, or a stretch that ends the run. -/
inductive Asked (M G B X : Type) where
  | reply (reply : ModelReply) (stand : Stand M G B X) (journal : Journal)
  | ended (stretch : Stretch M G B X)

namespace Controller

variable {M G B X : Type} (c : Controller M G B X) (inv : Invocation)

/-! ## One turn -/

/-- The request that a run makes of the model. -/
def request (s : LoopState) : ModelRequest :=
  { model := c.config.model
    messages := s.transcript.messages
    tools := inv.tools
    temperature := c.config.temperature
    maxTokens := c.config.maxTokens }

/-- Waits for the model, unless the run was cancelled before. -/
def awaitModel (s : Stand M G B X) : Asked M G B X :=
  let calling := s.entry (.remarked (.callingModel s.state.iterations))
  let s := { s with world := c.arrived s.world }
  if inv.cancel.fired s.world.now then .ended ⟨s, [calling], .cancelled⟩
  else
    let request := c.request inv s.state
    let (pending, model) := c.model.ask request s.world.model
    let asked := s.entry (.asked request)
    let reached (time : Nat) : Stand M G B X :=
      { s with world := { s.world with model, now := time } }
    match await inv.cancel none s.world.now pending.delay with
    | .done time =>
      match pending.result with
      | .error error => .ended ⟨reached time, [calling, asked], .failed (.model error)⟩
      | .ok reply =>
        .reply reply (reached time)
          [calling, asked, ⟨time, .replied reply (time - s.world.now)⟩]
    | .cancelled time => .ended ⟨reached time, [calling, asked], .cancelled⟩
    | .timedOut _ | .forever => .ended ⟨reached s.world.now, [calling, asked], .stalled⟩

/-- Begins a turn and asks the model, if the iteration budget allows it. -/
def askModel (s : Stand M G B X) : Asked M G B X :=
  let state := s.state.nextIteration
  let (decision, budget) := c.budget.checkIteration s.world.now s.world.budget
  let s : Stand M G B X := ⟨state, { s.world with budget }⟩
  let opening : Journal :=
    [s.entry (.traced (.step inv.traceId state.iterations)),
      s.entry (.budgetChecked .iteration decision)]
  match stopReason? c.config state (.turnStart decision) with
  | some reason =>
    .ended ⟨s,
      opening ++ [s.entry (.remarked (.iterationBudgetExhausted state.iterations decision))],
      .stop reason []⟩
  | none =>
    match c.awaitModel inv s with
    | .ended stretch => .ended (stretch.after opening)
    | .reply reply s journal => .reply reply s (opening ++ journal)

/-- Counts a reply and reports it to budget, tracer and observer. -/
def recordReply (reply : ModelReply) (s : Stand M G B X) : Stand M G B X × Journal :=
  let budget :=
    match reply.usage with
    | some usage => c.budget.recordUsage usage s.world.budget
    | none => s.world.budget
  let s : Stand M G B X := ⟨s.state.recordReply reply, { s.world with budget }⟩
  let used : Journal := reply.usage.toList.map fun usage => s.entry (.usageRecorded usage)
  let metadata : List (String × Json) :=
    [("invocation_id", .str inv.id), ("iteration", .nat s.state.iterations),
      ("model", .str reply.model), ("tool_calls", .nat reply.toolCalls.length)] ++
    reply.usage.toList.map fun usage => ("tokens", .nat usage.totalTokens)
  let observation :=
    Observation.of .modelReply reply.content metadata (c.epoch.addMillis s.world.now)
  (s, used ++
    [s.entry (.traced (.modelCall inv.traceId reply.model reply.usage reply.toolCalls.length)),
      s.entry (.observed observation)])

/-- Deals with a reply that is only a text: asks for its confirmation, or accepts it. -/
def takeText (content : String) (s : Stand M G B X) : Stretch M G B X :=
  if needsConfirmation c.config s.state then
    let remark := s.entry (.remarked (.requestingConfirmation s.state.iterations))
    match s.state.transcript.pushUser (c.stamps inv s.world.now) confirmationPrompt with
    | .error error => ⟨s, [remark], .failed (.transcript error)⟩
    | .ok transcript =>
      ⟨s.withState { s.state with transcript, awaitingConfirmation := true }, [remark], .goOn⟩
  else
    let reason := (stopReason? c.config s.state .answerAccepted).getD .completed
    ⟨s, [], .stop reason (Answer.read content)⟩

/-- Deals with a reply: it goes into the conversation, and its calls are dispatched if it has
any. -/
def takeReply (reply : ModelReply) (s : Stand M G B X) : Stretch M G B X :=
  let (s, recorded) := c.recordReply inv reply s
  let calls := normalizeCalls s.state.iterations reply.toolCalls
  let stamp := c.stamps inv s.world.now s.state.transcript.length
  let taken : Stretch M G B X :=
    match s.state.transcript.pushAssistant (.assistant stamp reply.content calls) with
    | .error error => ⟨s, [], .failed (.transcript error)⟩
    | .ok transcript =>
      if calls.isEmpty then c.takeText inv reply.content (s.withTranscript transcript)
      else
        c.dispatchBatch inv calls
          (s.withState { s.state with transcript, awaitingConfirmation := false })
  taken.after recorded

/-- Ends a turn: asks the duration budget, and stops the run if it has to. -/
def closeTurn (s : Stand M G B X) : Stretch M G B X :=
  let (decision, budget) := c.budget.checkDuration s.world.now s.world.budget
  let s : Stand M G B X := { s with world := { s.world with budget } }
  let checked := s.entry (.budgetChecked .duration decision)
  match stopReason? c.config s.state (.turnEnd decision) with
  | some reason =>
    ⟨s, [checked, s.entry (.remarked (.stoppingAfterTurn s.state.iterations reason))],
      .stop reason []⟩
  | none => ⟨s, [checked], .goOn⟩

/-- One turn. -/
def turn (s : Stand M G B X) : Stretch M G B X :=
  match c.askModel inv s with
  | .ended stretch => stretch
  | .reply reply s journal => ((c.takeReply inv reply s).andThen c.closeTurn).after journal

/-! ## All turns -/

/-- At most some turns.  A run that has had all turns of its configuration has stopped. -/
def turns : Nat → Stand M G B X → Stretch M G B X
  | 0, s => ⟨s, [], .stop .maxIterations []⟩
  | left + 1, s => (c.turn inv s).andThen (turns left)

/-- The number of turns that a run may have: every run has one. -/
def turnLimit : Nat := max 1 c.config.maxIterations

/-- How the tracer is told that a run ended, and what the run remarks on it. -/
def closing (s : LoopState) (flow : Flow) : Option (String × Remark) :=
  match flow with
  | .goOn | .stalled => none
  | .stop reason _ =>
    some (reason.name, .finished reason s.iterations s.toolCallsMade s.totalTokens)
  | .cancelled => some ("cancelled", .cancelled s.iterations)
  | .failed error => some ("fatal", .aborted error)

/-- How a run ended that began at the time `started`. -/
def endingOf (started : Nat) (s : Stand M G B X) (flow : Flow) : Ending :=
  match flow with
  | .goOn | .stalled => .stalled
  | .stop reason output =>
    .finished (s.state.result inv.id reason output (s.world.now - started))
  | .cancelled => .failed (.cancelled (s.state.progress inv.id))
  | .failed error => .failed error

/-- A whole run. -/
def run (w : World M G B X) : RunReport M G B X :=
  match Transcript.adopt (c.stamps inv w.now) inv.seed with
  | .error error => ⟨.failed (.transcript error), w, []⟩
  | .ok transcript =>
    let start : Stand M G B X := ⟨.begin transcript, w⟩
    let opening : Journal :=
      [start.entry (.traced (.start inv.traceId inv.id)),
        start.entry (.remarked
          (.started transcript.length inv.tools.length c.config.maxIterations))]
    let body := c.turns inv c.turnLimit start
    let ending : Journal :=
      match closing body.stand.state body.flow with
      | none => []
      | some (outcome, remark) =>
        [body.stand.entry (.traced (.finish inv.traceId outcome)),
          body.stand.entry (.remarked remark)]
    ⟨endingOf inv w.now body.stand body.flow, body.stand.world,
      opening ++ body.journal ++ ending⟩

end Controller

end AgentLoop
