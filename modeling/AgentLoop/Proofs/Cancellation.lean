import AgentLoop.Proofs.Confirmation
import AgentLoop.Proofs.Ledgers
import AgentLoop.Proofs.MessageIds
import AgentLoop.Proofs.Undisturbed

/-!
# Where a cancellation cuts a run

A cancellation cuts a run at one point and changes nothing before it.  Up to that point the run is
the undisturbed run: the same conversation, the same journal, the same counts.  After it nothing new
is started, and only the calls that are still open are answered.

* `Given` says of messages of tools which calls they answer; `Journal.Spoken` says so of a
  conversation and the journal of the run, and `spoken_of_reaches` is the induction.
* `CutShort` are the ways in which a cancellation can cut a run, and `exists_cutAt_of_flow` says
  that these are all.
* `CutOff` relates a cancelled run to the undisturbed one, and `cancellation_cuts` says that they
  are so related.  The two may give their messages different ids if the model pays no heed to ids.
-/

namespace AgentLoop

/-! ## Answers to the calls that a journal tells of -/

/-- The message answers the call of a record. -/
structure Message.AnswersRecord (m : Message) (r : ActionRecord) : Prop where
  role : m.role = .tool
  callId : m.toolCallId = some r.callId
  toolName : m.toolName = some r.toolName
  content : ∀ text, r.detail = some text → m.content = text

/-- Messages of tools, in which the calls of these records are answered one after the other.  The
others only defer a call. -/
inductive Given (cap : Nat) : List ActionRecord → List Message → Prop where
  | nothing : Given cap [] []
  | answer {records : List ActionRecord} {r : ActionRecord} {messages : List Message} {m : Message}
      (hgiven : Given cap records messages) (hm : m.AnswersRecord r) :
      Given cap (records ++ [r]) (messages ++ [m])
  | deferral {records : List ActionRecord} {messages : List Message} {m : Message} {call : ToolCall}
      (hgiven : Given cap records messages) (hm : m.AnswersWith (deferralText cap) call) :
      Given cap records (messages ++ [m])

/-- The messages of tools among some messages. -/
def ofTools (messages : List Message) : List Message := messages.filter fun m => m.role == .tool

/-- After the messages `seed` the tools have answered the calls that the journal tells of. -/
def Journal.Spoken (cap : Nat) (seed : List Message) (j : Journal) (messages : List Message) :
    Prop :=
  ∃ said, messages = seed ++ said ∧ Given cap j.actions (ofTools said)

namespace Journal.Spoken

variable {cap : Nat} {seed messages said : List Message} {j k : Journal}

/-- What is said without a tool. -/
theorem append (h : j.Spoken cap seed messages) (hactions : k.actions = [])
    (hsaid : ofTools said = []) : (j ++ k).Spoken cap seed (messages ++ said) := by
  obtain ⟨before, rfl, hgiven⟩ := h
  refine ⟨before ++ said, List.append_assoc _ _ _, ?_⟩
  rw [Journal.actions_append, hactions, List.append_nil, ofTools, List.filter_append, ← ofTools,
    ← ofTools, hsaid, List.append_nil]
  exact hgiven

theorem answer {r : ActionRecord} {m : Message} (h : j.Spoken cap seed messages)
    (hactions : k.actions = [r]) (hm : m.AnswersRecord r) :
    (j ++ k).Spoken cap seed (messages ++ [m]) := by
  obtain ⟨before, rfl, hgiven⟩ := h
  have hone : ofTools [m] = [m] := by simp [ofTools, hm.role]
  refine ⟨before ++ [m], List.append_assoc _ _ _, ?_⟩
  rw [Journal.actions_append, hactions, ofTools, List.filter_append, ← ofTools, ← ofTools, hone]
  exact hgiven.answer hm

theorem deferral {call : ToolCall} {m : Message} (h : j.Spoken cap seed messages)
    (hactions : k.actions = []) (hm : m.AnswersWith (deferralText cap) call) :
    (j ++ k).Spoken cap seed (messages ++ [m]) := by
  obtain ⟨before, rfl, hgiven⟩ := h
  have hone : ofTools [m] = [m] := by
    obtain ⟨stamp, rfl⟩ := hm
    rfl
  refine ⟨before ++ [m], List.append_assoc _ _ _, ?_⟩
  rw [Journal.actions_append, hactions, List.append_nil, ofTools, List.filter_append, ← ofTools,
    ← ofTools, hone]
  exact hgiven.deferral hm

end Journal.Spoken

namespace Controller

variable {M G B X : Type} (c : Controller M G B X) (inv : Invocation) {s : Stand M G B X}

/-- The record of a call fits its answer. -/
theorem answersRecord_of_answersWith {fate : Fate} {call : ToolCall} {m : Message}
    {durationMs : Nat} (h : m.AnswersWith (fate.content call.name) call) :
    m.AnswersRecord (fate.record call durationMs) := by
  obtain ⟨stamp, rfl⟩ := h
  refine ⟨rfl, rfl, rfl, fun text htext => ?_⟩
  rw [Fate.record] at htext
  simp only at htext
  split at htext
  · cases htext
  · exact Option.some.inj htext

variable {c inv} {w : World M G B X} {phase : Phase} {past journal : Journal} {flow : Flow}
  {seed : List Message}

/-- A stride with which the run goes on leaves no call unanswered that it tells of. -/
theorem spoken_stride (h : s.state.transcript.Awaits phase.open)
    (hflow : (c.stride inv phase s).1.flow = .goOn)
    (hspoken : past.Spoken c.config.maxToolCallsPerIteration seed s.state.transcript.messages) :
    (past ++ (c.stride inv phase s).1.journal).Spoken c.config.maxToolCallsPerIteration seed
      (c.stride inv phase s).1.stand.state.transcript.messages := by
  have hquiet : (∀ call calls deferred, phase ≠ .dispatching (call :: calls) deferred) →
      (c.stride inv phase s).1.stand.state.transcript.messages = s.state.transcript.messages →
      (past ++ (c.stride inv phase s).1.journal).Spoken c.config.maxToolCallsPerIteration seed
        (c.stride inv phase s).1.stand.state.transcript.messages := by
    intro hcall hsame
    rw [hsame, ← List.append_nil s.state.transcript.messages]
    exact hspoken.append (c.actions_stride_eq_nil inv h.pending hcall) rfl
  match phase with
  | .turn =>
    refine hquiet (by simp) ?_
    have hasks := c.asks_askModel inv s
    rw [stride]
    generalize c.askModel inv s = asked at hasks ⊢
    cases hasks <;> rfl
  | .replied reply =>
    have hnone : (c.stride inv (.replied reply) s).1.journal.actions = [] :=
      c.actions_stride_eq_nil inv h.pending (by simp)
    have htakes := c.takes_strideReply inv reply s
    rw [stride] at hnone hflow ⊢
    generalize c.strideReply inv reply s = taken at htakes hnone hflow ⊢
    cases htakes with
    | refused | accepted => cases hflow
    | prompted htext hneeds =>
      rw [messages_prompted]
      exact hspoken.append hnone rfl
    | calls hcalls => exact hspoken.append hnone rfl
  | .dispatching [] deferred => exact hquiet (by simp) rfl
  | .dispatching (call :: calls) deferred =>
    obtain ⟨m, hmessages, hm⟩ := c.messages_dispatch_of_goOn inv h.pending hflow
    rw [hmessages]
    exact hspoken.answer (c.actions_dispatch inv h.pending) (answersRecord_of_answersWith hm)
  | .deferring [] => exact hquiet (by simp) rfl
  | .deferring (call :: calls) =>
    have hnone : (c.stride inv (.deferring (call :: calls)) s).1.journal.actions = [] :=
      c.actions_stride_eq_nil inv h.pending (by simp)
    rw [stride] at hnone ⊢
    simp only at hnone ⊢
    rw [strideDeferral, Transcript.pushToolResult_of_pending h.pending] at hnone ⊢
    exact hspoken.deferral hnone ⟨_, rfl⟩
  | .closing =>
    refine hquiet (by simp) ?_
    rw [stride, closeTurn_eq]
    split <;> rfl

/-- At every point of a run the calls that the journal tells of are answered in the conversation. -/
theorem spoken_of_reaches {t : Transcript}
    (hadopt : Transcript.adopt (c.stamps inv w.now) inv.seed = .ok t)
    (h : c.Reaches inv w phase past s) :
    past.Spoken c.config.maxToolCallsPerIteration t.messages s.state.transcript.messages := by
  induction h with
  | begin hadopt' =>
    cases hadopt.symm.trans hadopt'
    exact ⟨[], (List.append_nil _).symm, .nothing⟩
  | stride hpast hflow ih => exact spoken_stride (awaits_of_reaches hpast) hflow ih

end Controller

/-! ## The cut -/

/-- The ways in which a cancellation cuts a run short after the messages `q`: what is still said
after them, and what was begun, asked, replied and executed in the last stride.  At most the model
or the executor is called once more, and this is the call that is cancelled. -/
inductive CutShort (q : List Message) : List Message → List Beat → Prop where
  /-- The model was to be asked, or was asked. -/
  | asking {last : List Beat} (hlast : last = [.begun] ∨ last = [.begun, .asked]) :
      CutShort q [] last
  /-- A call was to be executed, or was executed.  It is answered, and then each later call of the
  same reply. -/
  | executing {before given closed : List Message} {m answer : Message}
      {answered later : List ToolCall} {call : ToolCall} {last : List Beat}
      (hq : q = before ++ m :: given) (hrole : m.role = .assistant)
      (hcalls : m.toolCalls = answered ++ call :: later)
      (hgiven : List.Forall₂ Message.Answers given answered)
      (hanswer : answer.AnswersWith "Tool call cancelled before completion" call)
      (hclosed : List.Forall₂
        (Message.AnswersWith "Tool call not executed: loop cancelled") closed later)
      (hlast : last = [] ∨ last = [.executed]) : CutShort q (answer :: closed) last

/-- A sound conversation with open calls ends in the message that issued them, with the answers that
were given so far. -/
theorem Transcript.Sound.exists_issuing {t : Transcript} {call : ToolCall} {calls : List ToolCall}
    (h : t.Sound) (hpending : t.pending = call :: calls) :
    ∃ before m given answered, t.messages = before ++ m :: given ∧ m.role = .assistant ∧
      m.toolCalls = answered ++ call :: calls ∧ List.Forall₂ Message.Answers given answered := by
  cases h with
  | settled => cases hpending
  | awaiting horder hrole hids hcalls hgiven =>
    obtain rfl := hpending
    exact ⟨_, _, _, _, rfl, hrole, hcalls, hgiven⟩

namespace Controller

variable {M G B X : Type} (c : Controller M G B X) (inv : Invocation)

/-- A stretch in which the run is cancelled: it adds these messages to the conversation, and counts
nothing but a turn. -/
structure CutAt (s : Stand M G B X) (st : Stretch M G B X) (e : List Message) : Prop where
  messages : st.stand.state.transcript.messages = s.state.transcript.messages ++ e
  cutShort : CutShort s.state.transcript.messages e st.journal.beats
  totalTokens : st.stand.state.totalTokens = s.state.totalTokens
  toolCallsMade : st.stand.state.toolCallsMade = s.state.toolCallsMade
  toolsUsed : st.stand.state.toolsUsed = s.state.toolsUsed

variable {s : Stand M G B X}

/-- A turn is cut short at the model. -/
theorem cutAt_turn (hflow : (c.stride inv .turn s).1.flow = .cancelled) :
    CutAt s (c.stride inv .turn s).1 [] := by
  have hasks := c.asks_askModel inv s
  rw [stride] at hflow ⊢
  generalize c.askModel inv s = asked at hasks hflow ⊢
  cases hasks with
  | withdrawn =>
    exact ⟨(List.append_nil _).symm, .asking (.inl rfl), rfl, rfl, rfl⟩
  | cancelled =>
    exact ⟨(List.append_nil _).symm, .asking (.inr rfl), rfl, rfl, rfl⟩
  | _ => cases hflow

/-- A call that ends the run because it is cancelled has this fate. -/
theorem exists_fate_of_flow {call : ToolCall} {calls deferred : List ToolCall}
    (hpending : s.state.transcript.pending = call :: (calls ++ deferred))
    (hflow : (c.stride inv (.dispatching (call :: calls) deferred) s).1.flow = .cancelled) :
    ∃ arguments, (c.judge inv call s.world).1 = .cancelled arguments := by
  exact Fate.exists_eq_cancelled ((c.settles_dispatch inv hpending).cancelled_iff.1 hflow)

/-- A call that is cancelled is answered, and every call after it. -/
theorem messages_dispatch_of_cancelled {call : ToolCall} {calls deferred : List ToolCall}
    {arguments : JsonObject} (hpending : s.state.transcript.pending = call :: (calls ++ deferred))
    (hfate : (c.judge inv call s.world).1 = .cancelled arguments) :
    ∃ answer closed,
      (c.stride inv (.dispatching (call :: calls) deferred) s).1.stand.state.transcript.messages =
        s.state.transcript.messages ++ answer :: closed ∧
      answer.AnswersWith "Tool call cancelled before completion" call ∧
      List.Forall₂ (Message.AnswersWith "Tool call not executed: loop cancelled") closed
        (calls ++ deferred) := by
  rcases hjudge : c.judge inv call s.world with ⟨fate, w, asked⟩
  rw [hjudge] at hfate
  obtain rfl : fate = .cancelled arguments := hfate
  have hopen : c.closeBatch inv (c.dispatchCall inv call s) = c.dispatchCall inv call s := by
    rw [c.dispatchCall_of_pending inv hpending hjudge]
    rfl
  rw [stride, hopen, c.dispatchCall_of_pending inv hpending hjudge, transcript_settledState]
  refine ⟨_, _, List.append_assoc _ _ _, ⟨_, rfl⟩, ?_⟩
  exact Transcript.forall₂_answersWith _

/-- A batch is cut short at the call that is cancelled. -/
theorem exists_cutAt_dispatch {call : ToolCall} {calls deferred : List ToolCall}
    (h : s.state.transcript.Awaits (call :: (calls ++ deferred)))
    (hflow : (c.stride inv (.dispatching (call :: calls) deferred) s).1.flow = .cancelled) :
    ∃ e, CutAt s (c.stride inv (.dispatching (call :: calls) deferred) s).1 e := by
  obtain ⟨arguments, hfate⟩ := c.exists_fate_of_flow inv h.pending hflow
  obtain ⟨answer, closed, hmessages, hanswer, hclosed⟩ :=
    c.messages_dispatch_of_cancelled inv h.pending hfate
  obtain ⟨before, m, given, answered, hq, hrole, hcalls, hgiven⟩ :=
    h.sound.exists_issuing h.pending
  obtain ⟨t, hstate⟩ := c.exists_state_dispatch inv h.pending
  obtain ⟨n, hn, hbeats⟩ := c.beats_dispatch inv h.pending
  have hlast : (c.stride inv (.dispatching (call :: calls) deferred) s).1.journal.beats = [] ∨
      (c.stride inv (.dispatching (call :: calls) deferred) s).1.journal.beats = [.executed] := by
    rw [stride, hbeats]
    obtain rfl | rfl : n = 0 ∨ n = 1 := by omega
    · exact .inl rfl
    · exact .inr rfl
  have hcount : (c.judge inv call s.world).1.count call.name s.state = s.state := by
    rw [hfate]
    rfl
  rw [hcount] at hstate
  refine ⟨answer :: closed, hmessages, ?_, ?_, ?_, ?_⟩
  · exact .executing hq hrole hcalls hgiven hanswer hclosed hlast
  · rw [hstate]
  · rw [hstate]
  · rw [hstate]

/-- A run is cancelled where it begins a turn or dispatches a call. -/
theorem exists_cutAt_of_flow {phase : Phase} (h : s.state.transcript.Awaits phase.open)
    (hflow : (c.stride inv phase s).1.flow = .cancelled) :
    (∃ e, CutAt s (c.stride inv phase s).1 e) ∧ phase.incoming = [] := by
  cases c.waits_of_flow inv (.inl hflow) with
  | turn => exact ⟨⟨[], c.cutAt_turn inv hflow⟩, rfl⟩
  | dispatching => exact ⟨c.exists_cutAt_dispatch inv h hflow, rfl⟩

end Controller

/-- How a cancelled run that has come to `p` relates to the undisturbed one with this conversation.
What both have in common is the journal `past` and, up to ids, the messages `q`, which are made of
the replies and the answers that `past` tells of; `last` and `e` are what the cancelled run adds. -/
structure CutOff (cap : Nat) (seed : List Message) (p : LoopProgress) (conversation : List Message)
    (past last : Journal) (q e : List Message) : Prop where
  transcript : p.transcript = q ++ e
  isPrefix : q.map Message.withoutId <+: conversation.map Message.withoutId
  cutShort : CutShort q e last.beats
  told : Told seed past.replies q
  spoken : past.Spoken cap seed q
  tokensUsed : p.tokensUsed = past.tokensReceived
  toolCallsMade : p.toolCallsMade = past.successes.length
  toolsUsed : p.toolsUsed = NameSet.ofList past.successes

/-- An ending that is a result but for ids is a result. -/
theorem Ending.exists_result_of_withoutIds {ending : Ending} {r : LoopResult}
    (h : ending.withoutIds = .finished r) :
    ∃ r', ending = .finished r' ∧ r'.withoutIds = r := by
  cases ending with
  | finished r' => exact ⟨r', rfl, Ending.finished.inj h⟩
  | failed error => cases h
  | stalled => cases h

namespace Controller

variable {M G B X : Type} {c : Controller M G B X} {inv : Invocation} {w : World M G B X}
  {phase : Phase} {past : Journal} {s : Stand M G B X}

/-- A point at which a run is cancelled is a point of the undisturbed run, and nothing is left of
what the run would have done from there on. -/
theorem cutOff_of_reaches {t : Transcript} {r : LoopResult} {conversation e : List Message}
    (hadopt : Transcript.adopt (c.stamps inv w.now) inv.seed = .ok t)
    (h : c.Reaches inv w phase past s) (hincoming : phase.incoming = [])
    (hcut : CutAt s (c.stride inv phase s).1 e)
    (hresult : (c.run inv.undisturbed w).ending = .finished r)
    (hsame : r.transcript.map Message.withoutId = conversation.map Message.withoutId) :
    CutOff c.config.maxToolCallsPerIteration t.messages
      ((c.stride inv phase s).1.stand.state.progress inv.id) conversation past
      ((c.stride inv phase s).1.journal ++
        farewell inv (c.stride inv phase s).1.stand (c.stride inv phase s).1.flow)
      s.state.transcript.messages e := by
  have hcounts := counts_of_reaches h
  obtain ⟨replies, hdealt⟩ := dealt_of_reaches hadopt h
  constructor
  · exact hcut.messages
  · have hback : (c.run inv.undisturbed w).ending.transcript? = some r.transcript := by
      rw [hresult]
      rfl
    have hprefix : s.state.transcript.messages <+: r.transcript :=
      (c.messages_isPrefix_stride inv.undisturbed (awaits_of_reaches h)).trans
        (h.undisturbed.messages_isPrefix_run hback)
    rw [← hsame]
    exact hprefix.map Message.withoutId
  · rw [Journal.beats_append, Journal.beats, Journal.beats,
      pick_farewell inv Journal.skipsReports_beat?, List.append_nil]
    exact hcut.cutShort
  · have hreplies := hdealt.replies_eq
    rw [hincoming, List.append_nil] at hreplies
    rw [hreplies]
    exact hdealt.told
  · exact spoken_of_reaches hadopt h
  · have hreceived := tokensReceived_of_reaches h
    rw [hincoming] at hreceived
    rw [hreceived]
    exact hcut.totalTokens.trans hcounts.totalTokens
  · exact hcut.toolCallsMade.trans hcounts.toolCallsMade
  · exact hcut.toolsUsed.trans hcounts.toolsUsed

/-- A cancelled run is cut off from the undisturbed run, of which `conversation` is the conversation
up to ids. -/
theorem exists_cutOff {p : LoopProgress} {r : LoopResult} {conversation : List Message}
    (hcancelled : (c.run inv w).ending = .failed (.cancelled p))
    (hresult : (c.run inv.undisturbed w).ending = .finished r)
    (hsame : r.transcript.map Message.withoutId = conversation.map Message.withoutId) :
    ∃ t past last q e, Transcript.adopt (c.stamps inv w.now) inv.seed = .ok t ∧
      (c.run inv w).journal = past ++ last ∧ past <+: (c.run inv.undisturbed w).journal ∧
      CutOff c.config.maxToolCallsPerIteration t.messages p conversation past last q e := by
  cases hadopt : Transcript.adopt (c.stamps inv w.now) inv.seed with
  | error error =>
    rw [c.run_of_adopt_eq_error inv w hadopt] at hcancelled
    cases hcancelled
  | ok t =>
    obtain ⟨journal, s, flow, hends, hrun⟩ := c.exists_ends inv w hadopt
    rw [hrun] at hcancelled
    obtain ⟨hstopped, rfl⟩ := eq_cancelled_of_ends hends hcancelled
    rw [hrun]
    obtain @⟨phase, past, s, hpast, hflow⟩ := hends
    obtain ⟨⟨e, hcut⟩, hincoming⟩ :=
      c.exists_cutAt_of_flow inv (awaits_of_reaches hpast) hstopped
    refine ⟨t, past, _, s.state.transcript.messages, e, rfl, List.append_assoc _ _ _, ?_, ?_⟩
    · exact (List.prefix_append _ _).trans hpast.undisturbed.isPrefix_run
    · exact cutOff_of_reaches hadopt hpast hincoming hcut hresult hsame

variable (c inv)

/-- A cancellation changes nothing before it.  Up to the ids of messages, a run that is not
cancelled is the undisturbed run, and a run that is cancelled has the journal, the conversation and
the counts of the undisturbed run up to one point; after it the model or the executor is called at
most once more, which is the call that is cancelled, and every call that is still open is
answered. -/
theorem cancellation_cuts (w : World M G B X) (messageId : Nat → String)
    (hids : messageId = inv.messageId ∨ c.model.HeedsNoIds) :
    ((∀ p, (c.run inv w).ending ≠ .failed (.cancelled p)) →
      (c.run inv w).withoutIds = (c.run (inv.undisturbed.renamed messageId) w).withoutIds) ∧
    ∀ p r, (c.run inv w).ending = .failed (.cancelled p) →
      (c.run (inv.undisturbed.renamed messageId) w).ending = .finished r →
      ∃ t past last q e, Transcript.adopt (c.stamps inv w.now) inv.seed = .ok t ∧
        (c.run inv w).journal = past ++ last ∧
        past.withoutIds <+:
          (c.run (inv.undisturbed.renamed messageId) w).journal.withoutIds ∧
        CutOff c.config.maxToolCallsPerIteration t.messages p r.transcript past last q e := by
  have hrenamed : (c.run (inv.undisturbed.renamed messageId) w).withoutIds =
      (c.run inv.undisturbed w).withoutIds := run_renamed hids
  constructor
  · intro h
    rw [hrenamed, run_undisturbed h]
  · intro p r hcancelled hresult
    have hending := congrArg RunReport.ending hrenamed
    have hjournal : (c.run (inv.undisturbed.renamed messageId) w).journal.withoutIds =
        (c.run inv.undisturbed w).journal.withoutIds := congrArg RunReport.journal hrenamed
    rw [RunReport.withoutIds, hresult] at hending
    obtain ⟨r', hresult', hsame⟩ := Ending.exists_result_of_withoutIds hending.symm
    obtain ⟨t, past, last, q, e, hadopt, hsplit, hprefix, hcut⟩ :=
      exists_cutOff hcancelled hresult' (congrArg LoopResult.transcript hsame)
    refine ⟨t, past, last, q, e, hadopt, hsplit, ?_, hcut⟩
    rw [hjournal]
    exact hprefix.map _

/-- A controller whose tools take ten milliseconds each. -/
def slowTools : Controller Script Unit Unit Unit :=
  { scripted .default (.success "done") with
    executor := { execute := fun _ _ _ x => (⟨some 10, .success "done"⟩, x) } }

/-- A reply with three calls, and a text twice. -/
def threefold : World Script Unit Unit Unit :=
  reciting [.calls "" [⟨"a", "weather", ""⟩, ⟨"b", "weather", ""⟩, ⟨"c", "weather", ""⟩],
    .text "Sunny.", .text "Sunny."]

/-- The task, cancelled at a time of the clock. -/
def cancelledAt (time : Nat) : Invocation := { task with cancel := some time }

/-- The undisturbed run of a task, with other ids for its messages. -/
def renamedTask : Invocation := task.undisturbed.renamed fun _ => "message"

/-- Cancelled in the second call, the run answers it and the third one; cancelled after its end, it
is not disturbed. -/
theorem cancellation_cuts_slowTools :
    (slowTools.run (cancelledAt 60) threefold).withoutIds =
        (slowTools.run renamedTask threefold).withoutIds ∧
      ∃ p r t past last q e,
        (slowTools.run (cancelledAt 15) threefold).ending = .failed (.cancelled p) ∧
        p.toolCallsMade = 1 ∧ p.transcript.length = 6 ∧
        CutOff slowTools.config.maxToolCallsPerIteration t p r past last q e := by
  have hmodel : slowTools.model.HeedsNoIds := fun _ _ => rfl
  constructor
  · have hlate : (slowTools.run (cancelledAt 60) threefold).ending.result?.isSome = true := by
      decide +kernel
    refine (slowTools.cancellation_cuts (cancelledAt 60) threefold _ (.inr hmodel)).1 fun p hp => ?_
    rw [hp] at hlate
    cases hlate
  · have hcounts : ((slowTools.run (cancelledAt 15) threefold).ending.progress?.map
        fun p => (p.toolCallsMade, p.transcript.length)) = some (1, 6) := by
      decide +kernel
    have hnone : (slowTools.run (cancelledAt 15) threefold).ending.result? = none := by
      decide +kernel
    have hfree : (slowTools.run renamedTask threefold).ending.result?.isSome = true := by
      decide +kernel
    obtain ⟨p, hp, hboth⟩ := Option.map_eq_some_iff.1 hcounts
    obtain ⟨hmade, hlength⟩ := Prod.mk.inj hboth
    obtain ⟨r, hr⟩ := Option.isSome_iff_exists.1 hfree
    have hcancelled := Ending.eq_cancelled_of_progress? hp hnone
    obtain ⟨t, past, last, q, e, -, -, -, hcut⟩ :=
      (slowTools.cancellation_cuts (cancelledAt 15) threefold _ (.inr hmodel)).2 p r hcancelled
        (Ending.result?_eq_some_iff.1 hr)
    exact ⟨p, r.transcript, t.messages, past, last, q, e, hcancelled, hmade, hlength, hcut⟩

end Controller

end AgentLoop
