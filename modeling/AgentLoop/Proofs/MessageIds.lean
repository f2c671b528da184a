import AgentLoop.Proofs.Discipline

/-!
# The ids of messages

Every new message of a run is given an id.  The run never reads it: the id goes into the
conversation, and from there only to the model and into what the run hands back.  So two runs that
differ in the ids they give out go the same way, unless the model heeds ids.

There are three groups.

* What a run works on can have its ids struck out: `Message.withoutId`, and `withoutIds` for all
  that holds messages.  `ModelClient.HeedsNoIds` says that a model does not notice.
* The functions of a run do with a conversation without ids what they do with the conversation.
  There is one lemma for each place that appends a message, and `stride_withoutIds` is one stride.
* `Reaches.withoutIds` and `Ends.withoutIds` are the course, `run_withoutIds` the whole run, and
  `run_renamed` compares two runs.
-/

namespace AgentLoop

/-! ## Ids struck out -/

/-- The message without its id. -/
def Message.withoutId (m : Message) : Message := { m with id := "" }

/-- The stamps without their ids. -/
def Stamps.withoutIds (stamps : Stamps) : Stamps := fun position =>
  { stamps position with id := "" }

/-- The transcript without the ids of its messages. -/
def Transcript.withoutIds (t : Transcript) : Transcript :=
  { t with messages := t.messages.map Message.withoutId }

/-- The state without the ids of its messages. -/
def LoopState.withoutIds (s : LoopState) : LoopState :=
  { s with transcript := s.transcript.withoutIds }

/-- The request without the ids of its messages. -/
def ModelRequest.withoutIds (r : ModelRequest) : ModelRequest :=
  { r with messages := r.messages.map Message.withoutId }

/-- The progress without the ids of its messages. -/
def LoopProgress.withoutIds (p : LoopProgress) : LoopProgress :=
  { p with transcript := p.transcript.map Message.withoutId }

/-- The result without the ids of its messages. -/
def LoopResult.withoutIds (r : LoopResult) : LoopResult :=
  { r with transcript := r.transcript.map Message.withoutId }

/-- The failure without the ids of its messages. -/
def LoopError.withoutIds : LoopError → LoopError
  | cancelled progress => cancelled progress.withoutIds
  | error => error

/-- The ending without the ids of its messages. -/
def Ending.withoutIds : Ending → Ending
  | finished result => finished result.withoutIds
  | failed error => failed error.withoutIds
  | stalled => stalled

/-- The event without the ids of its messages. -/
def Event.withoutIds : Event → Event
  | asked request => asked request.withoutIds
  | remarked (.aborted error) => remarked (.aborted error.withoutIds)
  | event => event

/-- The journal without the ids of its messages. -/
def Journal.withoutIds (j : Journal) : Journal :=
  j.map fun e => { e with event := e.event.withoutIds }

/-- The flow without the ids of its messages. -/
def Flow.withoutIds : Flow → Flow
  | failed error => failed error.withoutIds
  | flow => flow

/-- The invocation without the ids of its messages, old and new. -/
def Invocation.withoutIds (inv : Invocation) : Invocation :=
  { inv with messageId := fun _ => "", seed := inv.seed.map Message.withoutId }

/-- The invocation with other ids for new messages. -/
def Invocation.renamed (inv : Invocation) (messageId : Nat → String) : Invocation :=
  { inv with messageId }

/-- The model pays no heed to the ids of messages. -/
def ModelClient.HeedsNoIds {M : Type} (client : ModelClient M) : Prop :=
  ∀ request m, client.ask request.withoutIds m = client.ask request m

@[simp] theorem Journal.withoutIds_append (j k : Journal) :
    (j ++ k).withoutIds = j.withoutIds ++ k.withoutIds :=
  List.map_append

@[simp] theorem Flow.withoutIds_eq_goOn_iff {flow : Flow} :
    flow.withoutIds = .goOn ↔ flow = .goOn := by
  cases flow <;> simp [withoutIds]

section

variable {M G B X : Type}

/-- The stand without the ids of its messages. -/
def Stand.withoutIds (s : Stand M G B X) : Stand M G B X := { s with state := s.state.withoutIds }

/-- The stretch without the ids of its messages. -/
def Stretch.withoutIds (st : Stretch M G B X) : Stretch M G B X :=
  ⟨st.stand.withoutIds, st.journal.withoutIds, st.flow.withoutIds⟩

/-- What comes of asking the model, without the ids of messages. -/
def Asked.withoutIds : Asked M G B X → Asked M G B X
  | reply r s journal => reply r s.withoutIds journal.withoutIds
  | ended stretch => ended stretch.withoutIds

/-- The report without the ids of its messages. -/
def RunReport.withoutIds (r : RunReport M G B X) : RunReport M G B X :=
  ⟨r.ending.withoutIds, r.world, r.journal.withoutIds⟩

end

/-! ## Conversations -/

namespace Transcript

variable (stamps : Stamps) (t : Transcript)

@[simp] theorem length_withoutIds : t.withoutIds.length = t.length :=
  List.length_map _

theorem pushAssistant_withoutIds (m : Message) :
    t.withoutIds.pushAssistant m.withoutId = (t.pushAssistant m).map withoutIds := by
  have hsame : m.withoutId.role = m.role := rfl
  rw [pushAssistant, pushAssistant, hsame]
  by_cases hrole : m.role = .assistant
  · rw [if_neg (not_not.2 hrole), if_neg (not_not.2 hrole)]
    obtain ⟨messages, pending⟩ := t
    cases pending with
    | cons call calls => rfl
    | nil =>
      simp only [withoutIds, Message.withoutId]
      cases firstRepeated? [] (m.toolCalls.map ToolCall.id) with
      | some id => rfl
      | none => simp [Except.map, withoutIds, Message.withoutId]
  · rw [if_pos hrole, if_pos hrole]
    rfl

theorem pushUser_withoutIds (content : String) :
    t.withoutIds.pushUser stamps.withoutIds content =
      (t.pushUser stamps content).map withoutIds := by
  obtain ⟨messages, pending⟩ := t
  cases pending with
  | cons call calls => rfl
  | nil =>
    simp [pushUser, withoutIds, Except.map, length, Message.withoutId, Message.user, Message.plain,
      Stamps.withoutIds]

theorem pushToolResult_withoutIds (id content : String) :
    t.withoutIds.pushToolResult stamps.withoutIds id content =
      (t.pushToolResult stamps id content).map withoutIds := by
  obtain ⟨messages, pending⟩ := t
  cases pending with
  | nil => rfl
  | cons call calls =>
    simp only [pushToolResult, withoutIds]
    split
    · simp [withoutIds, Except.map, length, Message.withoutId, Message.toolResult, Message.plain,
        Stamps.withoutIds]
    · split <;> rfl

theorem answers_withoutIds (content : String) (n : Nat) (calls : List ToolCall) :
    answers stamps.withoutIds content n calls =
      (answers stamps content n calls).map Message.withoutId := by
  induction calls generalizing n with
  | nil => rfl
  | cons call calls ih =>
    rw [answers, answers, ih]
    rfl

theorem closePending_withoutIds (content : String) :
    t.withoutIds.closePending stamps.withoutIds content =
      (t.closePending stamps content).withoutIds := by
  rw [closePending, closePending, length_withoutIds, answers_withoutIds]
  simp [withoutIds]

theorem take_withoutIds (m : Message) :
    t.withoutIds.take stamps.withoutIds m.withoutId = (t.take stamps m).map withoutIds := by
  have hrole : m.withoutId.role = m.role := rfl
  have hcall : m.withoutId.toolCallId = m.toolCallId := rfl
  rw [take, take, hrole, hcall]
  cases m.role with
  | system => rfl
  | user => exact pushUser_withoutIds stamps t m.content
  | assistant => exact pushAssistant_withoutIds t m
  | tool =>
    cases m.toolCallId with
    | none => rfl
    | some id => exact pushToolResult_withoutIds stamps t id m.content

theorem takeAll_withoutIds (messages : List Message) :
    t.withoutIds.takeAll stamps.withoutIds (messages.map Message.withoutId) =
      (t.takeAll stamps messages).map withoutIds := by
  induction messages generalizing t with
  | nil => rfl
  | cons m messages ih =>
    rw [List.map_cons, takeAll, takeAll, take_withoutIds]
    cases t.take stamps m with
    | error error => rfl
    | ok t => exact ih t

theorem adopt_withoutIds (messages : List Message) :
    adopt stamps.withoutIds (messages.map Message.withoutId) =
      (adopt stamps messages).map withoutIds := by
  cases messages with
  | nil => rfl
  | cons system rest =>
    have hsystem : system.withoutId.role = system.role := rfl
    simp only [List.map_cons, adopt, hsystem]
    split
    · rfl
    · cases rest with
      | nil => rfl
      | cons user rest =>
        have huser : user.withoutId.role = user.role := rfl
        simp only [List.map_cons, huser]
        split
        · rfl
        · have hall := takeAll_withoutIds stamps ⟨[system, user], []⟩ rest
          simp only [withoutIds, List.map_cons, List.map_nil] at hall
          rw [hall]
          cases takeAll stamps ⟨[system, user], []⟩ rest with
          | error error => rfl
          | ok t =>
            obtain ⟨messages, pending⟩ := t
            cases pending <;> rfl

end Transcript

namespace Controller

variable {M G B X : Type} (c : Controller M G B X) (inv : Invocation)

/-! ## The model is asked -/

/-- The model that heeds no ids gives the same answer. -/
theorem modelAnswer_withoutIds (hmodel : c.model.HeedsNoIds) (s : Stand M G B X) :
    c.modelAnswer inv.withoutIds s.withoutIds = c.modelAnswer inv s :=
  hmodel (c.request inv (c.asking s).state) (c.asking s).world.model

theorem awaitModel_withoutIds (hmodel : c.model.HeedsNoIds) (s : Stand M G B X) :
    c.awaitModel inv.withoutIds (c.begun s.withoutIds) =
      (c.awaitModel inv (c.begun s)).withoutIds := by
  have hanswer := c.modelAnswer_withoutIds inv hmodel s
  have hfired : inv.withoutIds.cancel.fired (c.asking s.withoutIds).world.now =
      inv.cancel.fired (c.asking s).world.now := rfl
  have hwait : c.modelWait inv.withoutIds s.withoutIds = c.modelWait inv s := by
    rw [modelWait, modelWait, hanswer]
    rfl
  have hheard (time : Nat) :
      c.heard inv.withoutIds s.withoutIds time = (c.heard inv s time).withoutIds := by
    rw [heard, heard, hanswer]
    rfl
  rw [awaitModel_begun, awaitModel_begun, hfired, hwait, hanswer]
  cases inv.cancel.fired (c.asking s).world.now with
  | true => rfl
  | false =>
    simp only [hheard]
    cases c.modelWait inv s with
    | done time => cases (c.modelAnswer inv s).1.result <;> rfl
    | _ => rfl

theorem askModel_withoutIds (hmodel : c.model.HeedsNoIds) (s : Stand M G B X) :
    c.askModel inv.withoutIds s.withoutIds = (c.askModel inv s).withoutIds := by
  have hreason : stopReason? c.config s.withoutIds.state.nextIteration
      (.turnStart (c.budget.checkIteration s.withoutIds.world.now s.withoutIds.world.budget).1) =
      stopReason? c.config s.state.nextIteration
        (.turnStart (c.budget.checkIteration s.world.now s.world.budget).1) := rfl
  rw [askModel_eq, askModel_eq, hreason, c.awaitModel_withoutIds inv hmodel]
  split
  · rfl
  · cases c.awaitModel inv (c.begun s) <;> rfl

/-! ## A reply is taken in -/

/-- What counting and reporting a reply writes into the journal holds no message. -/
theorem withoutIds_notedEntries (reply : ModelReply) (s : Stand M G B X) :
    (c.notedEntries inv reply s).withoutIds = c.notedEntries inv reply s := by
  rw [notedEntries, recordReply]
  cases reply.usage <;> rfl

theorem takeText_withoutIds (content : String) (s : Stand M G B X) :
    c.takeText inv.withoutIds content s.withoutIds = (c.takeText inv content s).withoutIds := by
  have hneeds : needsConfirmation c.config s.withoutIds.state =
      needsConfirmation c.config s.state := rfl
  have hpush : s.withoutIds.state.transcript.pushUser
      (c.stamps inv.withoutIds s.withoutIds.world.now) confirmationPrompt =
      (s.state.transcript.pushUser (c.stamps inv s.world.now) confirmationPrompt).map
        Transcript.withoutIds :=
    s.state.transcript.pushUser_withoutIds (c.stamps inv s.world.now) confirmationPrompt
  rw [takeText, takeText, hneeds, hpush]
  split
  · cases s.state.transcript.pushUser (c.stamps inv s.world.now) confirmationPrompt <;> rfl
  · rfl

theorem strideReply_withoutIds (reply : ModelReply) (s : Stand M G B X) :
    c.strideReply inv.withoutIds reply s.withoutIds =
      ((c.strideReply inv reply s).1.withoutIds, (c.strideReply inv reply s).2) := by
  have hcalls : callsOf reply s.withoutIds = callsOf reply s := rfl
  have hentries : c.notedEntries inv.withoutIds reply s.withoutIds =
      (c.notedEntries inv reply s).withoutIds := by
    rw [withoutIds_notedEntries]
    rfl
  have hlength : s.withoutIds.state.transcript.length = s.state.transcript.length :=
    s.state.transcript.length_withoutIds
  have hmessage : c.replyMessage inv.withoutIds reply s.withoutIds =
      (c.replyMessage inv reply s).withoutId := by
    rw [replyMessage, replyMessage, hlength]
    rfl
  have hpush : s.withoutIds.state.transcript.pushAssistant (c.replyMessage inv reply s).withoutId =
      (s.state.transcript.pushAssistant (c.replyMessage inv reply s)).map Transcript.withoutIds :=
    s.state.transcript.pushAssistant_withoutIds (c.replyMessage inv reply s)
  rw [strideReply, strideReply, hmessage, hpush, hentries, hcalls]
  cases s.state.transcript.pushAssistant (c.replyMessage inv reply s) with
  | error error => rfl
  | ok t =>
    simp only [Except.map]
    split
    · have htext : c.takeText inv.withoutIds reply.content
          ((c.noted inv.withoutIds reply s.withoutIds).withTranscript t.withoutIds) =
          (c.takeText inv reply.content ((c.noted inv reply s).withTranscript t)).withoutIds :=
        c.takeText_withoutIds inv reply.content ((c.noted inv reply s).withTranscript t)
      rw [htext]
      simp [Stretch.after, Stretch.withoutIds]
    · simp only [Stretch.withoutIds, Journal.withoutIds_append]
      rfl

/-! ## A call is dispatched -/

/-- What is asked about a call holds no message. -/
theorem withoutIds_judge (call : ToolCall) (w : World M G B X) :
    (c.judge inv call w).2.2.withoutIds = (c.judge inv call w).2.2 := by
  have hjudges := c.judges_judge inv call w
  generalize c.judge inv call w = judged at hjudges ⊢
  cases hjudges <;> rfl

/-- What is told about a call holds no message. -/
theorem withoutIds_settledEntries (started iteration : Nat) (call : ToolCall) (fate : Fate)
    (w : World M G B X) :
    (c.settledEntries inv started iteration call fate w).withoutIds =
      c.settledEntries inv started iteration call fate w := by
  cases fate with
  | ended arguments outcome =>
    rw [settledEntries, Fate.remarkAfter]
    split <;> rfl
  | _ => rfl

theorem answered_withoutIds (now : Nat) (call : ToolCall) (fate : Fate) (rest : List ToolCall)
    (t : Transcript) :
    c.answered inv.withoutIds now call fate rest t.withoutIds =
      (c.answered inv now call fate rest t).withoutIds := by
  have hgiven : (⟨t.withoutIds.messages ++
        [.toolResult (c.stamps inv.withoutIds now t.withoutIds.length) call
          (fate.content call.name)], rest⟩ : Transcript) =
      Transcript.withoutIds ⟨t.messages ++
        [.toolResult (c.stamps inv now t.length) call (fate.content call.name)], rest⟩ := by
    rw [Transcript.length_withoutIds]
    simp only [Transcript.withoutIds, List.map_append]
    rfl
  cases fate with
  | blocked arguments reason => rfl
  | cancelled arguments =>
    simp only [answered]
    rw [hgiven]
    exact Transcript.closePending_withoutIds (c.stamps inv now) _ _
  | _ => exact hgiven

theorem settledState_withoutIds (now : Nat) (call : ToolCall) (fate : Fate) (rest : List ToolCall)
    (s : LoopState) :
    c.settledState inv.withoutIds now call fate rest s.withoutIds =
      (c.settledState inv now call fate rest s).withoutIds := by
  have hanswered : c.answered inv.withoutIds now call fate rest s.withoutIds.transcript =
      (c.answered inv now call fate rest s.transcript).withoutIds :=
    c.answered_withoutIds inv now call fate rest s.transcript
  rw [settledState, settledState, hanswered, Fate.count, Fate.count]
  split <;> rfl

theorem flowAfter_withoutIds (fate : Fate) (s : LoopState) :
    c.flowAfter fate s.withoutIds = (c.flowAfter fate s).withoutIds := by
  have hreason : stopReason? c.config s.withoutIds .toolFailed =
      stopReason? c.config s .toolFailed := rfl
  rw [flowAfter, flowAfter, hreason]
  split
  · rfl
  · rfl
  · rfl
  · split <;> rfl

theorem dispatchCall_withoutIds {call : ToolCall} {rest : List ToolCall} {s : Stand M G B X}
    (hpending : s.state.transcript.pending = call :: rest) :
    c.dispatchCall inv.withoutIds call s.withoutIds = (c.dispatchCall inv call s).withoutIds := by
  have hpending' : s.withoutIds.state.transcript.pending = call :: rest := hpending
  have hasked := c.withoutIds_judge inv call s.world
  rcases hjudge : c.judge inv call s.world with ⟨fate, w, asked⟩
  rw [hjudge] at hasked
  have hentries := c.withoutIds_settledEntries inv s.world.now s.state.iterations call fate w
  have hstate := c.settledState_withoutIds inv w.now call fate rest s.state
  have hflow := c.flowAfter_withoutIds fate (c.settledState inv w.now call fate rest s.state)
  rw [c.dispatchCall_of_pending inv hpending hjudge,
    c.dispatchCall_of_pending inv.withoutIds hpending' hjudge, Stretch.withoutIds,
    Journal.withoutIds_append, hasked, hentries, ← hflow, ← hstate, Stand.withoutIds,
    Stand.withoutIds, hstate]
  rfl

theorem closeBatch_withoutIds (batch : Stretch M G B X) :
    c.closeBatch inv.withoutIds batch.withoutIds = (c.closeBatch inv batch).withoutIds := by
  obtain ⟨s, journal, flow⟩ := batch
  cases flow with
  | stop reason output =>
    have hclose := s.state.transcript.closePending_withoutIds (c.stamps inv s.world.now)
      (closingText reason)
    simp only [closeBatch, Stretch.withoutIds, Journal.withoutIds_append]
    exact congrArg (fun t => Stretch.mk (s.withoutIds.withTranscript t)
      (journal.withoutIds ++
        [s.entry (.remarked (.closedCalls s.state.transcript.pending.length reason))])
      (.stop reason output)) hclose
  | _ => rfl

theorem strideDeferral_withoutIds (call : ToolCall) (s : Stand M G B X) :
    c.strideDeferral inv.withoutIds call s.withoutIds =
      (c.strideDeferral inv call s).withoutIds := by
  have hpush : s.withoutIds.state.transcript.pushToolResult
      (c.stamps inv.withoutIds s.withoutIds.world.now) call.id
      (deferralText c.config.maxToolCallsPerIteration) =
      (s.state.transcript.pushToolResult (c.stamps inv s.world.now) call.id
        (deferralText c.config.maxToolCallsPerIteration)).map Transcript.withoutIds :=
    s.state.transcript.pushToolResult_withoutIds (c.stamps inv s.world.now) call.id
      (deferralText c.config.maxToolCallsPerIteration)
  rw [strideDeferral, strideDeferral, hpush]
  cases s.state.transcript.pushToolResult (c.stamps inv s.world.now) call.id
    (deferralText c.config.maxToolCallsPerIteration) <;> rfl

/-! ## A run -/

theorem closeTurn_withoutIds (s : Stand M G B X) :
    c.closeTurn s.withoutIds = (c.closeTurn s).withoutIds := by
  have hreason : stopReason? c.config s.withoutIds.state
      (.turnEnd (c.durationCheck s.withoutIds).1) =
      stopReason? c.config s.state (.turnEnd (c.durationCheck s).1) := rfl
  rw [closeTurn_eq, closeTurn_eq, hreason]
  split <;> rfl

/-- A stride does without ids what it does with them. -/
theorem stride_withoutIds (hmodel : c.model.HeedsNoIds) {phase : Phase} {s : Stand M G B X}
    (hpending : s.state.transcript.pending = phase.open) :
    c.stride inv.withoutIds phase s.withoutIds =
      ((c.stride inv phase s).1.withoutIds, (c.stride inv phase s).2) := by
  match phase with
  | .turn =>
    rw [stride, stride, c.askModel_withoutIds inv hmodel]
    cases c.askModel inv s <;> rfl
  | .replied reply => exact c.strideReply_withoutIds inv reply s
  | .dispatching [] deferred =>
    rw [stride, stride, strideToDeferred, strideToDeferred]
    cases deferred <;> rfl
  | .dispatching (call :: calls) deferred =>
    rw [stride, stride, c.dispatchCall_withoutIds inv hpending, closeBatch_withoutIds]
  | .deferring [] => rfl
  | .deferring (call :: calls) => rw [stride, stride, strideDeferral_withoutIds]
  | .closing => rw [stride, stride, closeTurn_withoutIds]

variable {c inv} {w : World M G B X} {phase : Phase} {past journal : Journal} {s : Stand M G B X}
  {flow : Flow}

theorem adopt_withoutIds {t : Transcript}
    (hadopt : Transcript.adopt (c.stamps inv w.now) inv.seed = .ok t) :
    Transcript.adopt (c.stamps inv.withoutIds w.now) inv.withoutIds.seed = .ok t.withoutIds := by
  have hsame := Transcript.adopt_withoutIds (c.stamps inv w.now) inv.seed
  rw [hadopt] at hsame
  exact hsame

/-- Without ids a run passes through the same points. -/
theorem Reaches.withoutIds (hmodel : c.model.HeedsNoIds) (h : c.Reaches inv w phase past s) :
    c.Reaches inv.withoutIds w phase past.withoutIds s.withoutIds := by
  induction h with
  | @begin t hadopt =>
    have hopening : c.opening inv.withoutIds w t.withoutIds = (c.opening inv w t).withoutIds := by
      rw [opening, Transcript.length_withoutIds]
      rfl
    rw [← hopening]
    exact .begin (adopt_withoutIds hadopt)
  | stride hpast hflow ih =>
    have hstride := c.stride_withoutIds inv hmodel (awaits_of_reaches hpast).pending
    have hnext := ih.stride (by rw [hstride]; exact Flow.withoutIds_eq_goOn_iff.2 hflow)
    rw [hstride] at hnext
    rw [Journal.withoutIds_append]
    exact hnext

theorem Ends.withoutIds (hmodel : c.model.HeedsNoIds) (h : c.Ends inv w journal s flow) :
    c.Ends inv.withoutIds w journal.withoutIds s.withoutIds flow.withoutIds := by
  obtain ⟨hpast, hstop⟩ := h
  have hstride := c.stride_withoutIds inv hmodel (awaits_of_reaches hpast).pending
  have hlast := Ends.last (hpast.withoutIds hmodel)
    (by rw [hstride]; exact fun e => hstop (Flow.withoutIds_eq_goOn_iff.1 e))
  rw [hstride] at hlast
  rw [Journal.withoutIds_append]
  exact hlast

theorem result_withoutIds (state : LoopState) (id : String) (reason : TerminationReason)
    (output : JsonObject) (durationMs : Nat) :
    state.withoutIds.result id reason output durationMs =
      (state.result id reason output durationMs).withoutIds := by
  have hlast : state.withoutIds.transcript.lastAssistant?.map Message.content =
      state.transcript.lastAssistant?.map Message.content := by
    simp only [LoopState.withoutIds, Transcript.withoutIds, Transcript.lastAssistant?,
      ← List.map_reverse, List.find?_map, Option.map_map]
    rfl
  rw [LoopState.result, hlast]
  rfl

theorem reportOf_withoutIds :
    reportOf inv.withoutIds w journal.withoutIds s.withoutIds flow.withoutIds =
      (reportOf inv w journal s flow).withoutIds := by
  have hending : endingOf inv.withoutIds w.now s.withoutIds flow.withoutIds =
      (endingOf inv w.now s flow).withoutIds := by
    cases flow with
    | stop reason output => exact congrArg Ending.finished (result_withoutIds _ _ _ _ _)
    | _ => rfl
  have hfarewell : farewell inv.withoutIds s.withoutIds flow.withoutIds =
      (farewell inv s flow).withoutIds := by
    cases flow <;> rfl
  rw [reportOf, hending, hfarewell, RunReport.withoutIds, reportOf, Journal.withoutIds_append]
  rfl

/-- The run without ids is the run, with the ids struck out. -/
theorem run_withoutIds (hmodel : c.model.HeedsNoIds) :
    c.run inv.withoutIds w = (c.run inv w).withoutIds := by
  cases hadopt : Transcript.adopt (c.stamps inv w.now) inv.seed with
  | error error =>
    have hsame := Transcript.adopt_withoutIds (c.stamps inv w.now) inv.seed
    rw [hadopt] at hsame
    rw [c.run_of_adopt_eq_error inv w hadopt, c.run_of_adopt_eq_error inv.withoutIds w hsame]
    rfl
  | ok t =>
    obtain ⟨journal, s, flow, hends, hrun⟩ := c.exists_ends inv w hadopt
    rw [hrun, (hends.withoutIds hmodel).run_eq_reportOf, reportOf_withoutIds]

/-- Two runs that differ in the ids of their new messages are the same but for ids, unless the model
heeds ids. -/
theorem run_renamed {messageId : Nat → String}
    (hids : messageId = inv.messageId ∨ c.model.HeedsNoIds) :
    (c.run (inv.renamed messageId) w).withoutIds = (c.run inv w).withoutIds := by
  rcases hids with rfl | hmodel
  · rfl
  · rw [← run_withoutIds hmodel, ← run_withoutIds hmodel]
    rfl

end Controller

end AgentLoop
