import AgentLoop.Proofs.Discipline

/-!
# What the strides of a run can do

A run decides how it flows on where it takes in a reply and where it dispatches a call.  For each
place this module lists all that can happen.  Later proofs go through these cases.

* `Controller.Takes` are the ways in which a reply can be taken in, and `takes_strideReply` says
  that these are all.
* `exists_state_strideReply` and `exists_state_dispatch` say what is counted of a reply and of a
  call.
* `Controller.Settles` says what follows from the status of a dispatched call: how the run flows on
  and how many calls have failed in a row.  `settles_dispatch` says so of every call.
* `exists_state_stride` is about all other strides.  Only in the phases that `Phase.Waits` names can
  a run be cancelled or get stuck.
-/

namespace AgentLoop

/-- A call that ended like this is counted as a failure. -/
def ActionStatus.isFailure : ActionStatus → Bool
  | failed | timedOut | denied | invalidArguments => true
  | succeeded | blocked | cancelled => false

/-- A phase is about to dispatch a call, or it is not. -/
theorem Phase.dispatching_or (phase : Phase) :
    (∃ call calls deferred, phase = .dispatching (call :: calls) deferred) ∨
      ∀ call calls deferred, phase ≠ .dispatching (call :: calls) deferred := by
  by_cases h : ∃ call calls deferred, phase = .dispatching (call :: calls) deferred
  · exact .inl h
  · exact .inr fun call calls deferred hphase => h ⟨call, calls, deferred, hphase⟩

/-- In the phase a run waits, for the model or for a tool. -/
inductive Phase.Waits : Phase → Prop where
  | turn : Waits .turn
  | dispatching {call : ToolCall} {calls deferred : List ToolCall} :
      Waits (.dispatching (call :: calls) deferred)

/-- A phase is about to take a reply in, or it is not. -/
theorem Phase.replied_or (phase : Phase) :
    (∃ reply, phase = .replied reply) ∨ ∀ reply, phase ≠ .replied reply := by
  by_cases h : ∃ reply, phase = .replied reply
  · exact .inl h
  · exact .inr fun reply hphase => h ⟨reply, hphase⟩

namespace Controller

variable {M G B X : Type} (c : Controller M G B X) (inv : Invocation) {s : Stand M G B X}

/-! ## A reply is taken in -/

/-- The conversation with a reply, whose calls are open. -/
def withReply (reply : ModelReply) (s : Stand M G B X) : Transcript :=
  ⟨s.state.transcript.messages ++ [c.replyMessage inv reply s], callsOf reply s⟩

/-- The message that asks for the confirmation of a text. -/
def promptMessage (reply : ModelReply) (s : Stand M G B X) : Message :=
  .user (c.stamps inv s.world.now (c.withReply inv reply s).length) confirmationPrompt

/-- The stand after a text that is to be confirmed. -/
def prompted (reply : ModelReply) (s : Stand M G B X) : Stand M G B X :=
  (c.noted inv reply s).withState
    { (c.noted inv reply s).state with
      transcript := ⟨(c.withReply inv reply s).messages ++ [c.promptMessage inv reply s], []⟩
      awaitingConfirmation := true }

/-- The ways in which a reply can be taken in. -/
inductive Takes (reply : ModelReply) (s : Stand M G B X) : Stretch M G B X × Phase → Prop where
  /-- Two calls of the reply have the same id. -/
  | refused {error : TranscriptError}
      (hpush : s.state.transcript.pushAssistant (c.replyMessage inv reply s) = .error error) :
      Takes reply s
        (⟨c.noted inv reply s, c.notedEntries inv reply s, .failed (.transcript error)⟩, .closing)
  /-- The reply is a text that is to be confirmed. -/
  | prompted (htext : reply.toolCalls = []) (hneeds : needsConfirmation c.config s.state = true) :
      Takes reply s
        (⟨c.prompted inv reply s,
          c.notedEntries inv reply s ++
            [⟨s.world.now, .remarked (.requestingConfirmation s.state.iterations)⟩],
          .goOn⟩, .closing)
  /-- The reply is a text that is accepted. -/
  | accepted (htext : reply.toolCalls = [])
      (hneeds : needsConfirmation c.config s.state = false) :
      Takes reply s
        (⟨(c.noted inv reply s).withTranscript (c.withReply inv reply s),
          c.notedEntries inv reply s, .stop .completed (Answer.read reply.content)⟩, .closing)
  /-- The reply has calls. -/
  | calls (hcalls : reply.toolCalls ≠ []) :
      Takes reply s
        (⟨c.dispatchStand inv reply s (c.withReply inv reply s),
          c.notedEntries inv reply s ++ [⟨s.world.now, .remarked
            (.executingCalls s.state.iterations (callsOf reply s).length
              ((callsOf reply s).drop c.config.maxToolCallsPerIteration).length)⟩],
          .goOn⟩,
          .dispatching ((callsOf reply s).take c.config.maxToolCallsPerIteration)
            ((callsOf reply s).drop c.config.maxToolCallsPerIteration))

/-- The calls of a reply are taken over one by one, so only a text is left without any. -/
theorem callsOf_eq_nil_iff {reply : ModelReply} : callsOf reply s = [] ↔ reply.toolCalls = [] := by
  rw [callsOf, normalizeCalls]
  cases reply.toolCalls <;> simp [normalizeFrom]

/-- A text is to be confirmed or accepted. -/
theorem takeText_withReply {reply : ModelReply} (htext : reply.toolCalls = []) :
    c.takeText inv reply.content
        ((c.noted inv reply s).withTranscript (c.withReply inv reply s)) =
      if needsConfirmation c.config s.state then
        ⟨c.prompted inv reply s,
          [⟨s.world.now, .remarked (.requestingConfirmation s.state.iterations)⟩], .goOn⟩
      else
        ⟨(c.noted inv reply s).withTranscript (c.withReply inv reply s), [],
          .stop .completed (Answer.read reply.content)⟩ :=
  c.takeText_of_pending inv (callsOf_eq_nil_iff.2 htext)

/-- A reply is taken in in one of these ways. -/
theorem takes_strideReply (reply : ModelReply) (s : Stand M G B X) :
    c.Takes inv reply s (c.strideReply inv reply s) := by
  rw [strideReply]
  cases hpush : s.state.transcript.pushAssistant (c.replyMessage inv reply s) with
  | error error => exact .refused hpush
  | ok t =>
    obtain ⟨-, -, -, rfl⟩ := Transcript.pushAssistant_eq_ok_iff.1 hpush
    simp only
    split
    · next hcalls =>
      have hcalls : callsOf reply s = [] := by simpa using hcalls
      have htext := callsOf_eq_nil_iff.1 hcalls
      change c.Takes inv reply s ((c.takeText inv reply.content
        ((c.noted inv reply s).withTranscript (c.withReply inv reply s))).after _, _)
      rw [c.takeText_withReply inv htext]
      split
      · next hneeds => exact .prompted htext hneeds
      · next hneeds =>
        rw [Stretch.after, List.append_nil]
        exact .accepted htext (by simpa using hneeds)
    · next hcalls =>
      have hcalls : callsOf reply s ≠ [] := by simpa using hcalls
      exact .calls fun h => hcalls (callsOf_eq_nil_iff.2 h)

/-- A reply is counted.  Apart from that only the conversation changes, and the mark of a text that
is to be confirmed. -/
theorem exists_state_strideReply (reply : ModelReply) (s : Stand M G B X) :
    ∃ t awaiting, (c.strideReply inv reply s).1.stand.state =
      { s.state.recordReply reply with transcript := t, awaitingConfirmation := awaiting } := by
  have htakes := c.takes_strideReply inv reply s
  generalize c.strideReply inv reply s = taken at htakes ⊢
  cases htakes <;> exact ⟨_, _, rfl⟩

/-! ## A call is settled -/

/-- What follows from the status of a dispatched call when so many calls before it have failed in a
row: how the run flows on, and the failures in a row after it. -/
inductive Settles (errors : Nat) : ActionStatus → Flow → Nat → Prop where
  | succeeded : Settles errors .succeeded .goOn 0
  | failed {status : ActionStatus} (hfailure : status.isFailure = true)
      (hmore : errors + 1 < c.config.errorThreshold) : Settles errors status .goOn (errors + 1)
  /-- Too many calls have failed in a row. -/
  | exhausted {status : ActionStatus} (hfailure : status.isFailure = true)
      (hexhausted : c.config.errorThreshold ≤ errors + 1) :
      Settles errors status (.stop .error []) (errors + 1)
  | blocked : Settles errors .blocked (.stop .budgetExceeded []) errors
  | cancelled : Settles errors .cancelled .cancelled errors

@[simp] theorem flow_closeBatch (st : Stretch M G B X) : (c.closeBatch inv st).flow = st.flow := by
  rw [closeBatch]
  split
  · next hflow => exact hflow.symm
  · rfl

/-- To close a batch only the open calls are answered. -/
theorem exists_state_closeBatch (st : Stretch M G B X) :
    ∃ t, (c.closeBatch inv st).stand.state = { st.stand.state with transcript := t } := by
  rw [closeBatch]
  split <;> exact ⟨_, rfl⟩

/-- A dispatched call is counted by its fate.  Apart from that only the conversation changes. -/
theorem exists_state_dispatch {call : ToolCall} {calls deferred : List ToolCall}
    (hpending : s.state.transcript.pending = call :: (calls ++ deferred)) :
    ∃ t, (c.stride inv (.dispatching (call :: calls) deferred) s).1.stand.state =
      { (c.judge inv call s.world).1.count call.name s.state with transcript := t } := by
  rcases hjudge : c.judge inv call s.world with ⟨fate, w, asked⟩
  obtain ⟨t, hclosed⟩ := c.exists_state_closeBatch inv (c.dispatchCall inv call s)
  rw [c.dispatchCall_of_pending inv hpending hjudge] at hclosed
  refine ⟨t, ?_⟩
  rw [stride, c.dispatchCall_of_pending inv hpending hjudge, hclosed]
  simp only [settledState, Fate.count]
  split <;> rfl

/-- A failure is counted, and then the run goes on or stops. -/
theorem settles_of_isFailure {fate : Fate} (hfailure : fate.status.isFailure = true)
    (tool : String) (s : LoopState) :
    c.Settles s.consecutiveErrors fate.status (c.flowAfter fate (fate.count tool s))
      (fate.count tool s).consecutiveErrors := by
  have hcount : fate.count tool s = s.recordFailure := by
    rw [Fate.count]
    split <;> simp_all [ActionStatus.isFailure]
  have hflow : c.flowAfter fate s.recordFailure =
      if c.config.errorThreshold ≤ s.consecutiveErrors + 1 then .stop .error [] else .goOn := by
    rw [flowAfter]
    split
    · next hstatus => simp [hstatus, ActionStatus.isFailure] at hfailure
    · next hstatus => simp [hstatus, ActionStatus.isFailure] at hfailure
    · next hstatus => simp [hstatus, ActionStatus.isFailure] at hfailure
    · simp only [stopReason?, errorsExhausted, LoopState.recordFailure]
      by_cases hexhausted : c.config.errorThreshold ≤ s.consecutiveErrors + 1 <;> simp [hexhausted]
  rw [hcount, hflow]
  split
  · next hexhausted => exact .exhausted hfailure hexhausted
  · next hmore => exact .failed hfailure (Nat.not_le.1 hmore)

/-- A dispatched call is settled by its status. -/
theorem settles_dispatch {call : ToolCall} {calls deferred : List ToolCall}
    (hpending : s.state.transcript.pending = call :: (calls ++ deferred)) :
    c.Settles s.state.consecutiveErrors (c.judge inv call s.world).1.status
      (c.stride inv (.dispatching (call :: calls) deferred) s).1.flow
      (c.stride inv (.dispatching (call :: calls) deferred) s).1.stand.state.consecutiveErrors := by
  rcases hjudge : c.judge inv call s.world with ⟨fate, w, asked⟩
  obtain ⟨t, hclosed⟩ := c.exists_state_closeBatch inv (c.dispatchCall inv call s)
  simp only [stride]
  rw [flow_closeBatch, hclosed, c.dispatchCall_of_pending inv hpending hjudge]
  cases hfailure : fate.status.isFailure with
  | true =>
    exact c.settles_of_isFailure hfailure call.name
      { s.state with
        transcript := c.answered inv w.now call fate (calls ++ deferred) s.state.transcript }
  | false =>
    simp only [settledState, flowAfter, Fate.count]
    cases hstatus : fate.status with
    | succeeded => exact .succeeded
    | blocked => exact .blocked
    | cancelled => exact .cancelled
    | _ => simp [hstatus, ActionStatus.isFailure] at hfailure

/-- After a call with which the run goes on, its answer is the last message. -/
theorem messages_dispatch_of_goOn {call : ToolCall} {calls deferred : List ToolCall}
    (hpending : s.state.transcript.pending = call :: (calls ++ deferred))
    (hflow : (c.stride inv (.dispatching (call :: calls) deferred) s).1.flow = .goOn) :
    ∃ m,
      (c.stride inv (.dispatching (call :: calls) deferred) s).1.stand.state.transcript.messages =
        s.state.transcript.messages ++ [m] ∧
      m.AnswersWith ((c.judge inv call s.world).1.content call.name) call := by
  rcases hjudge : c.judge inv call s.world with ⟨fate, w, asked⟩
  rw [stride, flow_closeBatch, c.dispatchCall_of_pending inv hpending hjudge] at hflow
  have hopen : c.closeBatch inv (c.dispatchCall inv call s) = c.dispatchCall inv call s := by
    rw [closeBatch, c.dispatchCall_of_pending inv hpending hjudge, hflow]
  rw [stride, hopen, c.dispatchCall_of_pending inv hpending hjudge, transcript_settledState]
  cases fate with
  | blocked | cancelled => cases hflow
  | _ => exact ⟨_, rfl, _, rfl⟩

variable {c} {errors errors' : Nat} {status : ActionStatus}

/-- A call stops the run when it is blocked or when it is one failure too many. -/
theorem Settles.of_stop {reason : TerminationReason} {output : JsonObject}
    (h : c.Settles errors status (.stop reason output) errors') :
    output = [] ∧
      (reason = .error ∧ status.isFailure = true ∧ c.config.errorThreshold ≤ errors + 1 ∨
        reason = .budgetExceeded ∧ status = .blocked) := by
  cases h with
  | exhausted hfailure hexhausted => exact ⟨rfl, .inl ⟨rfl, hfailure, hexhausted⟩⟩
  | blocked => exact ⟨rfl, .inr ⟨rfl, rfl⟩⟩

/-- A call ends the run as cancelled exactly when it is cancelled. -/
theorem Settles.cancelled_iff {flow : Flow} (h : c.Settles errors status flow errors') :
    flow = .cancelled ↔ status = .cancelled := by
  have hfailing : status.isFailure = true → status ≠ .cancelled := by
    rintro hfailure rfl
    cases hfailure
  cases h with
  | failed hfailure => simp [hfailing hfailure]
  | exhausted hfailure => simp [hfailing hfailure]
  | _ => simp

/-- A run never gets stuck on a call. -/
theorem Settles.ne_stalled {flow : Flow} (h : c.Settles errors status flow errors') :
    flow ≠ .stalled := by
  cases h <;> simp

variable (c)

/-! ## The other strides -/

/-- A run is cancelled or gets stuck only where it waits. -/
theorem waits_of_flow {phase : Phase}
    (hflow : (c.stride inv phase s).1.flow = .cancelled ∨
      (c.stride inv phase s).1.flow = .stalled) : phase.Waits := by
  match phase with
  | .turn => exact .turn
  | .replied reply =>
    have htakes := c.takes_strideReply inv reply s
    rw [stride] at hflow
    generalize c.strideReply inv reply s = taken at htakes hflow
    cases htakes <;> simp at hflow
  | .dispatching [] deferred => simp [stride, strideToDeferred] at hflow
  | .dispatching (call :: calls) deferred => exact .dispatching
  | .deferring [] => simp [stride] at hflow
  | .deferring (call :: calls) =>
    rw [stride, strideDeferral] at hflow
    split at hflow <;> simp at hflow
  | .closing =>
    rw [stride, closeTurn_eq] at hflow
    split at hflow <;> simp at hflow

/-- Where no reply is taken in and no call is dispatched, a run at most counts a turn and adds to
the conversation. -/
theorem exists_state_stride {phase : Phase} (hreply : ∀ reply, phase ≠ .replied reply)
    (hcall : ∀ call calls deferred, phase ≠ .dispatching (call :: calls) deferred) :
    ∃ t n, (c.stride inv phase s).1.stand.state =
      { s.state with transcript := t, iterations := n } := by
  match phase with
  | .turn =>
    have hasks := c.asks_askModel inv s
    rw [stride]
    generalize c.askModel inv s = asked at hasks ⊢
    cases hasks <;> exact ⟨_, _, rfl⟩
  | .replied reply => exact absurd rfl (hreply reply)
  | .dispatching [] deferred => exact ⟨_, _, rfl⟩
  | .dispatching (call :: calls) deferred => exact absurd rfl (hcall call calls deferred)
  | .deferring [] => exact ⟨_, _, rfl⟩
  | .deferring (call :: calls) =>
    rw [stride, strideDeferral]
    split <;> exact ⟨_, _, rfl⟩
  | .closing =>
    rw [stride, closeTurn_eq]
    split <;> exact ⟨_, _, rfl⟩

end Controller

end AgentLoop
