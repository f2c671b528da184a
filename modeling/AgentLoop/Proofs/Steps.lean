import AgentLoop.Proofs.Conversation
import AgentLoop.Run.Run

/-!
# What the steps of a run can do

A run asks its collaborators at two places: it asks for a turn and for the reply of the model, and
it asks for the fate of a call.  For each place this module lists all that can happen, with what
the collaborators answered, what becomes of the world, and what is written into the journal.  Later
proofs go through these cases and do not open the functions again.

* `Controller.Asks` are the ways in which a turn can begin, and `asks_askModel` says that these are
  all.
* `takeReply_eq`, `takeText_of_pending` and `closeTurn_eq` say what a run does with a reply, with a
  text, and at the end of a turn.
* `Controller.Judges` are the ways in which the fate of a call can be found, and `judges_judge`
  says that these are all.
* `answerCall_of_pending` says that the call that is next in turn can always be answered, and
  `dispatchCall_of_pending` puts such a call together from its fate and its answer.
-/

namespace AgentLoop

/-- A wait with a limit ends. -/
theorem await_limited_ne_forever (cancel : Cancellation) (limit now : Nat) (delay : Option Nat) :
    await cancel (some limit) now delay ≠ .forever := by
  unfold await awaitUndisturbed
  cases cancel <;> cases delay <;> simp only <;> (repeat' split) <;> simp_all

/-- A wait without a limit does not run out of time. -/
theorem await_unlimited_ne_timedOut (cancel : Cancellation) (now : Nat) (delay : Option Nat)
    (time : Nat) : await cancel none now delay ≠ .timedOut time := by
  unfold await awaitUndisturbed
  cases cancel <;> cases delay <;> simp only <;> (repeat' split) <;> simp_all

/-- A wait without a limit that does not end is a wait for something that never comes. -/
theorem delay_eq_none_of_await {cancel : Cancellation} {now : Nat} {delay : Option Nat}
    (h : await cancel none now delay = .forever) : delay = none := by
  cases delay with
  | none => rfl
  | some delay =>
    cases cancel with
    | none => cases h
    | some time =>
      simp only [await, awaitUndisturbed] at h
      by_cases htime : time ≤ now + delay <;> simp [htime] at h

/-- What comes at once comes in time. -/
theorem await_at_once {cancel : Cancellation} {now : Nat} (h : cancel.fired now = false)
    (limit : Option Nat) : await cancel limit now (some 0) = .done now := by
  have hdone : awaitUndisturbed limit now (some 0) = .done now := by
    cases limit <;> simp [awaitUndisturbed]
  cases cancel with
  | none => simp only [await, hdone]
  | some time =>
    have hlater : ¬ time ≤ now := by simpa [Cancellation.fired] using h
    simp only [await, hdone, if_neg hlater]

@[simp] theorem Stand.transcript_withTranscript {M G B X : Type} (s : Stand M G B X)
    (t : Transcript) : (s.withTranscript t).state.transcript = t := rfl

namespace Controller

variable {M G B X : Type} (c : Controller M G B X) (inv : Invocation)

/-! ## A turn begins -/

/-- The stand after the iteration budget was asked. -/
def begun (s : Stand M G B X) : Stand M G B X :=
  ⟨s.state.nextIteration,
    { s.world with budget := (c.budget.checkIteration s.world.now s.world.budget).2 }⟩

/-- What a turn writes into the journal at first. -/
def turnEntries (s : Stand M G B X) : Journal :=
  [⟨s.world.now, .traced (.step inv.traceId s.state.nextIteration.iterations)⟩,
    ⟨s.world.now,
      .budgetChecked .iteration (c.budget.checkIteration s.world.now s.world.budget).1⟩]

/-- The stand when the model is asked. -/
def asking (s : Stand M G B X) : Stand M G B X :=
  { c.begun s with world := c.arrived (c.begun s).world }

/-- The entry that announces a request. -/
def callingEntry (s : Stand M G B X) : Entry :=
  ⟨s.world.now, .remarked (.callingModel s.state.nextIteration.iterations)⟩

/-- The entry of a request. -/
def askedEntry (s : Stand M G B X) : Entry :=
  ⟨(c.asking s).world.now, .asked (c.request inv (c.asking s).state)⟩

/-- What the model says to the request, and the model after it. -/
def modelAnswer (s : Stand M G B X) : Pending (Except ModelError ModelReply) × M :=
  c.model.ask (c.request inv (c.asking s).state) (c.asking s).world.model

/-- The stand at the end of the wait for the model. -/
def heard (s : Stand M G B X) (time : Nat) : Stand M G B X :=
  { c.asking s with
    world := { (c.asking s).world with model := (c.modelAnswer inv s).2, now := time } }

/-- The wait for the model. -/
def modelWait (s : Stand M G B X) : Waited :=
  await inv.cancel none (c.asking s).world.now (c.modelAnswer inv s).1.delay

/-- The ways in which a turn can begin. -/
inductive Asks (s : Stand M G B X) : Asked M G B X → Prop where
  /-- The iteration budget refuses. -/
  | blocked {reason : String}
      (hbudget : (c.budget.checkIteration s.world.now s.world.budget).1 = .blocked reason) :
      Asks s (.ended ⟨c.begun s,
        c.turnEntries inv s ++
          [⟨s.world.now, .remarked
            (.iterationBudgetExhausted s.state.nextIteration.iterations (.blocked reason))⟩],
        .stop .budgetExceeded []⟩)
  /-- The run is cancelled before the model is asked. -/
  | withdrawn
      (hbudget : (c.budget.checkIteration s.world.now s.world.budget).1 = .allowed)
      (hfired : inv.cancel.fired (c.asking s).world.now = true) :
      Asks s (.ended ⟨c.asking s, c.turnEntries inv s ++ [callingEntry s], .cancelled⟩)
  /-- The run is cancelled while the model is asked. -/
  | cancelled {time : Nat}
      (hbudget : (c.budget.checkIteration s.world.now s.world.budget).1 = .allowed)
      (hfired : inv.cancel.fired (c.asking s).world.now = false)
      (hwait : c.modelWait inv s = .cancelled time) :
      Asks s (.ended ⟨c.heard inv s time,
        c.turnEntries inv s ++ [callingEntry s, c.askedEntry inv s], .cancelled⟩)
  /-- The model never answers. -/
  | stalled
      (hbudget : (c.budget.checkIteration s.world.now s.world.budget).1 = .allowed)
      (hfired : inv.cancel.fired (c.asking s).world.now = false)
      (hwait : c.modelWait inv s = .forever) :
      Asks s (.ended ⟨c.heard inv s (c.asking s).world.now,
        c.turnEntries inv s ++ [callingEntry s, c.askedEntry inv s], .stalled⟩)
  /-- The model fails. -/
  | failed {time : Nat} {error : ModelError}
      (hbudget : (c.budget.checkIteration s.world.now s.world.budget).1 = .allowed)
      (hfired : inv.cancel.fired (c.asking s).world.now = false)
      (hwait : c.modelWait inv s = .done time)
      (hresult : (c.modelAnswer inv s).1.result = .error error) :
      Asks s (.ended ⟨c.heard inv s time,
        c.turnEntries inv s ++ [callingEntry s, c.askedEntry inv s], .failed (.model error)⟩)
  /-- The model replies. -/
  | replied {time : Nat} {reply : ModelReply}
      (hbudget : (c.budget.checkIteration s.world.now s.world.budget).1 = .allowed)
      (hfired : inv.cancel.fired (c.asking s).world.now = false)
      (hwait : c.modelWait inv s = .done time)
      (hresult : (c.modelAnswer inv s).1.result = .ok reply) :
      Asks s (.reply reply (c.heard inv s time)
        (c.turnEntries inv s ++ [callingEntry s, c.askedEntry inv s,
          ⟨time, .replied reply (time - (c.asking s).world.now)⟩]))

/-- A turn begins with the question to the iteration budget. -/
theorem askModel_eq (s : Stand M G B X) :
    c.askModel inv s =
      match stopReason? c.config s.state.nextIteration
          (.turnStart (c.budget.checkIteration s.world.now s.world.budget).1) with
      | some reason =>
        .ended ⟨c.begun s,
          c.turnEntries inv s ++
            [⟨s.world.now, .remarked
              (.iterationBudgetExhausted s.state.nextIteration.iterations
                (c.budget.checkIteration s.world.now s.world.budget).1)⟩],
          .stop reason []⟩
      | none =>
        match c.awaitModel inv (c.begun s) with
        | .ended stretch => .ended (stretch.after (c.turnEntries inv s))
        | .reply reply s' journal => .reply reply s' (c.turnEntries inv s ++ journal) :=
  rfl

/-- The wait for the model begins with the question whether the run was cancelled. -/
theorem awaitModel_begun (s : Stand M G B X) :
    c.awaitModel inv (c.begun s) =
      if inv.cancel.fired (c.asking s).world.now then
        .ended ⟨c.asking s, [callingEntry s], .cancelled⟩
      else
        match c.modelWait inv s with
        | .done time =>
          match (c.modelAnswer inv s).1.result with
          | .error error =>
            .ended ⟨c.heard inv s time, [callingEntry s, c.askedEntry inv s],
              .failed (.model error)⟩
          | .ok reply =>
            .reply reply (c.heard inv s time)
              [callingEntry s, c.askedEntry inv s,
                ⟨time, .replied reply (time - (c.asking s).world.now)⟩]
        | .cancelled time =>
          .ended ⟨c.heard inv s time, [callingEntry s, c.askedEntry inv s], .cancelled⟩
        | .timedOut _ | .forever =>
          .ended ⟨c.heard inv s (c.asking s).world.now,
            [callingEntry s, c.askedEntry inv s], .stalled⟩ :=
  rfl

/-- A turn begins in one of these ways. -/
theorem asks_askModel (s : Stand M G B X) : c.Asks inv s (c.askModel inv s) := by
  rw [askModel_eq]
  cases hbudget : (c.budget.checkIteration s.world.now s.world.budget).1 with
  | blocked reason => exact .blocked hbudget
  | allowed =>
    simp only [stopReason?, BudgetDecision.isBlocked, Bool.false_eq_true, if_false]
    rw [awaitModel_begun]
    cases hfired : inv.cancel.fired (c.asking s).world.now with
    | true => exact .withdrawn hbudget hfired
    | false =>
      simp only [Bool.false_eq_true, if_false]
      cases hwait : c.modelWait inv s with
      | done time =>
        cases hresult : (c.modelAnswer inv s).1.result with
        | error error => exact .failed hbudget hfired hwait hresult
        | ok reply => exact .replied hbudget hfired hwait hresult
      | cancelled time => exact .cancelled hbudget hfired hwait
      | timedOut time => exact absurd hwait (await_unlimited_ne_timedOut _ _ _ _)
      | forever => exact .stalled hbudget hfired hwait

/-! ## A reply is taken in -/

/-- The stand after a reply was counted and reported. -/
def noted (reply : ModelReply) (s : Stand M G B X) : Stand M G B X :=
  (c.recordReply inv reply s).1

/-- What counting and reporting a reply writes into the journal. -/
def notedEntries (reply : ModelReply) (s : Stand M G B X) : Journal :=
  (c.recordReply inv reply s).2

/-- The calls of a reply, each with an id that is not blank. -/
def callsOf (reply : ModelReply) (s : Stand M G B X) : List ToolCall :=
  normalizeCalls s.state.iterations reply.toolCalls

/-- The message of the assistant that a reply becomes. -/
def replyMessage (reply : ModelReply) (s : Stand M G B X) : Message :=
  .assistant (c.stamps inv s.world.now s.state.transcript.length) reply.content (callsOf reply s)

/-- The stand when the calls of a reply are dispatched. -/
def dispatchStand (reply : ModelReply) (s : Stand M G B X) (t : Transcript) : Stand M G B X :=
  (c.noted inv reply s).withState
    { (c.noted inv reply s).state with transcript := t, awaitingConfirmation := false }

/-- A reply is counted, and then its message goes into the conversation. -/
theorem takeReply_eq (reply : ModelReply) (s : Stand M G B X) :
    c.takeReply inv reply s =
      Stretch.after (c.notedEntries inv reply s)
        (match s.state.transcript.pushAssistant (c.replyMessage inv reply s) with
        | .error error => ⟨c.noted inv reply s, [], .failed (.transcript error)⟩
        | .ok t =>
          if (callsOf reply s).isEmpty then
            c.takeText inv reply.content ((c.noted inv reply s).withTranscript t)
          else c.dispatchBatch inv (callsOf reply s) (c.dispatchStand inv reply s t)) :=
  rfl

/-- A text is to be confirmed or accepted. -/
theorem takeText_of_pending {content : String} {s : Stand M G B X}
    (hpending : s.state.transcript.pending = []) :
    c.takeText inv content s =
      if needsConfirmation c.config s.state then
        ⟨s.withState
          { s.state with
            transcript :=
              ⟨s.state.transcript.messages ++
                [.user (c.stamps inv s.world.now s.state.transcript.length) confirmationPrompt],
                []⟩
            awaitingConfirmation := true },
          [s.entry (.remarked (.requestingConfirmation s.state.iterations))], .goOn⟩
      else ⟨s, [], .stop .completed (Answer.read content)⟩ := by
  rw [takeText, Transcript.pushUser_eq_ok_iff.2 ⟨hpending, rfl⟩]
  rfl

/-! ## A turn ends -/

/-- What the duration budget says, and the budget after it. -/
def durationCheck (s : Stand M G B X) : BudgetDecision × B :=
  c.budget.checkDuration s.world.now s.world.budget

/-- The stand after the duration budget was asked. -/
def durationChecked (s : Stand M G B X) : Stand M G B X :=
  { s with world := { s.world with budget := (c.durationCheck s).2 } }

/-- The entry of the duration budget's decision. -/
def durationEntry (s : Stand M G B X) : Entry :=
  ⟨s.world.now, .budgetChecked .duration (c.durationCheck s).1⟩

/-- At the end of a turn the duration budget is asked, and then the run stops or goes on. -/
theorem closeTurn_eq (s : Stand M G B X) :
    c.closeTurn s =
      match stopReason? c.config s.state (.turnEnd (c.durationCheck s).1) with
      | some reason =>
        ⟨c.durationChecked s,
          [c.durationEntry s,
            ⟨s.world.now, .remarked (.stoppingAfterTurn s.state.iterations reason)⟩],
          .stop reason []⟩
      | none => ⟨c.durationChecked s, [c.durationEntry s], .goOn⟩ :=
  rfl

/-! ## The fate of a call is found -/

/-- What the gate says to a call, and the gate after it. -/
def ruling (call : ToolCall) (arguments : JsonObject) (w : World M G B X) : Authorization × G :=
  c.gate.authorize w.now call.name arguments (c.callContext inv call)
    (c.callContext inv call).autonomy w.gate

/-- The world after the gate was asked. -/
def ruled (call : ToolCall) (arguments : JsonObject) (w : World M G B X) : World M G B X :=
  { w with gate := (c.ruling inv call arguments w).2 }

/-- The entry of the gate's decision. -/
def rulingEntry (call : ToolCall) (arguments : JsonObject) (w : World M G B X) : Entry :=
  ⟨w.now,
    .authorized call.name arguments (c.callContext inv call) (c.ruling inv call arguments w).1⟩

/-- What the budget says to an authorized call, and the budget after it. -/
def toolCheck (call : ToolCall) (arguments : JsonObject) (w : World M G B X) :
    BudgetDecision × B :=
  c.budget.checkTool w.now call.name arguments w.budget

/-- The world after the budget was asked. -/
def checked (call : ToolCall) (arguments : JsonObject) (w : World M G B X) : World M G B X :=
  { c.ruled inv call arguments w with budget := (c.toolCheck call arguments w).2 }

/-- The entry of the budget's decision. -/
def checkEntry (call : ToolCall) (arguments : JsonObject) (w : World M G B X) : Entry :=
  ⟨w.now, .budgetChecked (.tool call.name arguments) (c.toolCheck call arguments w).1⟩

/-- The world when the execution of a call begins. -/
def executing (call : ToolCall) (arguments : JsonObject) (w : World M G B X) : World M G B X :=
  c.arrived (c.checked inv call arguments w)

/-- Where a run takes no time by itself, the executor is entered at once. -/
theorem now_executing (hlag : ∀ w, c.lag w = 0) (call : ToolCall) (arguments : JsonObject)
    (w : World M G B X) : (c.executing inv call arguments w).now = w.now := by
  show w.now + c.lag _ = w.now
  rw [hlag, Nat.add_zero]

/-- What the executor makes of a call, and the executor after it. -/
def execution (call : ToolCall) (arguments : JsonObject) (w : World M G B X) :
    Pending ToolOutcome × X :=
  c.executor.execute call.name arguments (c.callContext inv call)
    (c.executing inv call arguments w).tools

/-- The entry of an execution. -/
def executedEntry (call : ToolCall) (arguments : JsonObject) (w : World M G B X) : Entry :=
  ⟨(c.executing inv call arguments w).now,
    .executed call.name arguments (c.callContext inv call)⟩

/-- The world at the end of the wait for an execution. -/
def executed (call : ToolCall) (arguments : JsonObject) (w : World M G B X) (time : Nat) :
    World M G B X :=
  { c.executing inv call arguments w with
    tools := (c.execution inv call arguments w).2, now := time }

/-- The wait for an execution. -/
def toolWait (call : ToolCall) (arguments : JsonObject) (w : World M G B X) : Waited :=
  await inv.cancel (some c.config.toolCallTimeoutMs) (c.executing inv call arguments w).now
    (c.execution inv call arguments w).1.delay

/-- The ways in which the fate of a call can be found. -/
inductive Judges (call : ToolCall) (w : World M G B X) : Fate × World M G B X × Journal → Prop where
  /-- The arguments cannot be read. -/
  | unreadable {error : ArgumentsError} (hread : Arguments.read call.arguments = .error error) :
      Judges call w (.unreadable error, w, [])
  /-- The gate refuses. -/
  | denied {arguments : JsonObject} {reason : String}
      (hread : Arguments.read call.arguments = .ok arguments)
      (hruling : (c.ruling inv call arguments w).1 = .denied reason) :
      Judges call w
        (.denied reason, c.ruled inv call arguments w, [c.rulingEntry inv call arguments w])
  /-- The gate allows the call, and the budget refuses. -/
  | blocked {arguments : JsonObject} {reason : String}
      (hread : Arguments.read call.arguments = .ok arguments)
      (hruling : (c.ruling inv call arguments w).1 = .allowed)
      (hcheck : (c.toolCheck call arguments w).1 = .blocked reason) :
      Judges call w (.blocked arguments reason, c.checked inv call arguments w,
        [c.rulingEntry inv call arguments w, c.checkEntry call arguments w])
  /-- The run is cancelled before the execution begins. -/
  | withdrawn {arguments : JsonObject}
      (hread : Arguments.read call.arguments = .ok arguments)
      (hruling : (c.ruling inv call arguments w).1 = .allowed)
      (hcheck : (c.toolCheck call arguments w).1 = .allowed)
      (hfired : inv.cancel.fired (c.executing inv call arguments w).now = true) :
      Judges call w (.cancelled arguments, c.executing inv call arguments w,
        [c.rulingEntry inv call arguments w, c.checkEntry call arguments w])
  /-- The execution ends in time. -/
  | ended {arguments : JsonObject} {time : Nat}
      (hread : Arguments.read call.arguments = .ok arguments)
      (hruling : (c.ruling inv call arguments w).1 = .allowed)
      (hcheck : (c.toolCheck call arguments w).1 = .allowed)
      (hfired : inv.cancel.fired (c.executing inv call arguments w).now = false)
      (hwait : c.toolWait inv call arguments w = .done time) :
      Judges call w (.ended arguments (c.execution inv call arguments w).1.result,
        c.executed inv call arguments w time,
        [c.rulingEntry inv call arguments w, c.checkEntry call arguments w,
          c.executedEntry inv call arguments w])
  /-- The execution takes too long. -/
  | timedOut {arguments : JsonObject} {time : Nat}
      (hread : Arguments.read call.arguments = .ok arguments)
      (hruling : (c.ruling inv call arguments w).1 = .allowed)
      (hcheck : (c.toolCheck call arguments w).1 = .allowed)
      (hfired : inv.cancel.fired (c.executing inv call arguments w).now = false)
      (hwait : c.toolWait inv call arguments w = .timedOut time) :
      Judges call w (.timedOut arguments c.config.toolCallTimeoutMs,
        c.executed inv call arguments w time,
        [c.rulingEntry inv call arguments w, c.checkEntry call arguments w,
          c.executedEntry inv call arguments w])
  /-- The run is cancelled while the execution goes on. -/
  | cancelled {arguments : JsonObject} {time : Nat}
      (hread : Arguments.read call.arguments = .ok arguments)
      (hruling : (c.ruling inv call arguments w).1 = .allowed)
      (hcheck : (c.toolCheck call arguments w).1 = .allowed)
      (hfired : inv.cancel.fired (c.executing inv call arguments w).now = false)
      (hwait : c.toolWait inv call arguments w = .cancelled time) :
      Judges call w (.cancelled arguments, c.executed inv call arguments w time,
        [c.rulingEntry inv call arguments w, c.checkEntry call arguments w,
          c.executedEntry inv call arguments w])

/-- The gate is asked first. -/
theorem askGate_eq (call : ToolCall) (arguments : JsonObject) (w : World M G B X) :
    c.askGate inv call arguments w =
      match (c.ruling inv call arguments w).1 with
      | .denied reason =>
        (.denied reason, c.ruled inv call arguments w, [c.rulingEntry inv call arguments w])
      | .allowed =>
        let asked := c.askBudget inv call arguments (c.ruled inv call arguments w)
        (asked.1, asked.2.1, c.rulingEntry inv call arguments w :: asked.2.2) :=
  rfl

/-- The budget is asked next. -/
theorem askBudget_ruled (call : ToolCall) (arguments : JsonObject) (w : World M G B X) :
    c.askBudget inv call arguments (c.ruled inv call arguments w) =
      match (c.toolCheck call arguments w).1 with
      | .blocked reason =>
        (.blocked arguments reason, c.checked inv call arguments w,
          [c.checkEntry call arguments w])
      | .allowed =>
        let done := c.execute inv call arguments (c.checked inv call arguments w)
        (done.1, done.2.1, c.checkEntry call arguments w :: done.2.2) :=
  rfl

/-- The executor comes last, unless the run was cancelled. -/
theorem execute_checked (call : ToolCall) (arguments : JsonObject) (w : World M G B X) :
    c.execute inv call arguments (c.checked inv call arguments w) =
      if inv.cancel.fired (c.executing inv call arguments w).now then
        (.cancelled arguments, c.executing inv call arguments w, [])
      else
        match c.toolWait inv call arguments w with
        | .done time =>
          (.ended arguments (c.execution inv call arguments w).1.result,
            c.executed inv call arguments w time, [c.executedEntry inv call arguments w])
        | .timedOut time =>
          (.timedOut arguments c.config.toolCallTimeoutMs,
            c.executed inv call arguments w time, [c.executedEntry inv call arguments w])
        | .cancelled time =>
          (.cancelled arguments, c.executed inv call arguments w time,
            [c.executedEntry inv call arguments w])
        | .forever =>
          (.timedOut arguments c.config.toolCallTimeoutMs,
            c.executed inv call arguments w (c.executing inv call arguments w).now,
            [c.executedEntry inv call arguments w]) :=
  rfl

/-- The fate of a call is found in one of these ways. -/
theorem judges_judge (call : ToolCall) (w : World M G B X) :
    c.Judges inv call w (c.judge inv call w) := by
  rw [judge]
  cases hread : Arguments.read call.arguments with
  | error error => exact .unreadable hread
  | ok arguments =>
    simp only
    rw [askGate_eq]
    cases hruling : (c.ruling inv call arguments w).1 with
    | denied reason => exact .denied hread hruling
    | allowed =>
      simp only
      rw [askBudget_ruled]
      cases hcheck : (c.toolCheck call arguments w).1 with
      | blocked reason => exact .blocked hread hruling hcheck
      | allowed =>
        simp only
        rw [execute_checked]
        cases hfired : inv.cancel.fired (c.executing inv call arguments w).now with
        | true => exact .withdrawn hread hruling hcheck hfired
        | false =>
          simp only [Bool.false_eq_true, if_false]
          cases hwait : c.toolWait inv call arguments w with
          | done time => exact .ended hread hruling hcheck hfired hwait
          | timedOut time => exact .timedOut hread hruling hcheck hfired hwait
          | cancelled time => exact .cancelled hread hruling hcheck hfired hwait
          | forever => exact absurd hwait (await_limited_ne_forever _ _ _ _)

/-! ## A call is settled -/

/-- The transcript after a call that was next in turn; `rest` are the calls after it. -/
def answered (now : Nat) (call : ToolCall) (fate : Fate) (rest : List ToolCall) (t : Transcript) :
    Transcript :=
  let stamps := c.stamps inv now
  let given : Transcript :=
    ⟨t.messages ++ [.toolResult (stamps t.length) call (fate.content call.name)], rest⟩
  match fate with
  | .blocked .. => t
  | .cancelled _ => given.closePending stamps cancellationText
  | _ => given

/-- The call that is next in turn can always be answered. -/
theorem answerCall_of_pending {now : Nat} {call : ToolCall} {fate : Fate} {rest : List ToolCall}
    {t : Transcript} (h : t.pending = call :: rest) :
    c.answerCall inv now call fate t = .ok (c.answered inv now call fate rest t) := by
  cases fate <;> simp [answerCall, answered, Transcript.pushToolResult_of_pending h, Except.map]

/-- The state of a run after a call that was next in turn. -/
def settledState (now : Nat) (call : ToolCall) (fate : Fate) (rest : List ToolCall)
    (state : LoopState) : LoopState :=
  fate.count call.name
    { state with transcript := c.answered inv now call fate rest state.transcript }

/-- What settling a call that was dispatched at the time `started` writes into the journal. -/
def settledEntries (started iteration : Nat) (call : ToolCall) (fate : Fate)
    (w : World M G B X) : Journal :=
  remarks w.now (fate.remarkBefore call) ++ (c.auditCall inv call fate w).2 ++
    c.reportCall inv w.now iteration call fate (w.now - started) ++
    remarks w.now (fate.remarkAfter call)

@[simp] theorem iterations_count (tool : String) (fate : Fate) (state : LoopState) :
    (fate.count tool state).iterations = state.iterations := by
  rw [Fate.count]
  split <;> rfl

@[simp] theorem transcript_count (tool : String) (fate : Fate) (state : LoopState) :
    (fate.count tool state).transcript = state.transcript := by
  rw [Fate.count]
  split <;> rfl

@[simp] theorem transcript_settledState (now : Nat) (call : ToolCall) (fate : Fate)
    (rest : List ToolCall) (state : LoopState) :
    (c.settledState inv now call fate rest state).transcript =
      c.answered inv now call fate rest state.transcript :=
  transcript_count _ _ _

/-- A dispatched call that was next in turn: first its fate is found, then it is settled. -/
theorem dispatchCall_of_pending {call : ToolCall} {rest : List ToolCall} {s : Stand M G B X}
    {fate : Fate} {w : World M G B X} {asked : Journal}
    (hpending : s.state.transcript.pending = call :: rest)
    (hjudge : c.judge inv call s.world = (fate, w, asked)) :
    c.dispatchCall inv call s =
      ⟨⟨c.settledState inv w.now call fate rest s.state, (c.auditCall inv call fate w).1⟩,
        asked ++ c.settledEntries inv s.world.now s.state.iterations call fate w,
        c.flowAfter fate (c.settledState inv w.now call fate rest s.state)⟩ := by
  simp only [dispatchCall, hjudge, settle, answerCall_of_pending c inv hpending, Stretch.after,
    settledState, settledEntries, iterations_count]

end Controller

end AgentLoop
