import AgentLoop.Proofs.Discipline
import AgentLoop.Proofs.Histories

/-!
# The conversation that a run hands back

A run hands its conversation back when it is finished, and when it is cancelled.  All that was said
on the way is still in it, it is in good order, and another run can begin with it.

There are three groups.

* `messages_isPrefix_stride` says that a stride only appends messages, and
  `Reaches.messages_isPrefix_run` that the messages of every point are found at the end.
* `Ending.transcript?` is what a run hands back, and `eq_messages_of_transcript?` says that it is
  the conversation at the end of the course.
* The results.  `transcript_failure_iff` says when a run fails on its conversation, and
  `inGoodOrder_run` that a conversation that is handed back is in good order and can be taken over
  by another run.
-/

namespace AgentLoop

namespace Controller

variable {M G B X : Type} {c : Controller M G B X} {inv : Invocation} {s : Stand M G B X}
  {w : World M G B X} {phase : Phase} {past : Journal}

/-! ## Messages are only ever appended -/

variable (c inv)

theorem messages_isPrefix_takeText (content : String) (h : s.state.transcript.pending = []) :
    s.state.transcript.messages <+: (c.takeText inv content s).stand.state.transcript.messages := by
  rw [takeText_of_pending c inv h]
  split
  · exact List.prefix_append _ _
  · exact List.prefix_refl _

theorem messages_isPrefix_answered (now : Nat) (call : ToolCall) (fate : Fate)
    (rest : List ToolCall) (t : Transcript) :
    t.messages <+: (c.answered inv now call fate rest t).messages := by
  cases fate with
  | blocked => exact List.prefix_refl _
  | cancelled => exact (List.prefix_append _ _).trans (List.prefix_append _ _)
  | _ => exact List.prefix_append _ _

theorem messages_isPrefix_closeBatch (st : Stretch M G B X) :
    st.stand.state.transcript.messages <+:
      (c.closeBatch inv st).stand.state.transcript.messages := by
  rw [closeBatch]
  split
  · exact List.prefix_append _ _
  · exact List.prefix_refl _

/-- A stride only appends messages. -/
theorem messages_isPrefix_stride {phase : Phase} (h : s.state.transcript.Awaits phase.open) :
    s.state.transcript.messages <+:
      (c.stride inv phase s).1.stand.state.transcript.messages := by
  match phase with
  | .turn =>
    have hasks := c.asks_askModel inv s
    rw [stride]
    generalize c.askModel inv s = asked at hasks ⊢
    cases hasks <;> exact List.prefix_refl _
  | .replied reply =>
    rw [stride, strideReply]
    simp only
    split
    · exact List.prefix_refl _
    · next t hpush =>
      obtain ⟨-, -, -, rfl⟩ := Transcript.pushAssistant_eq_ok_iff.1 hpush
      have hmessage := List.prefix_append s.state.transcript.messages [c.replyMessage inv reply s]
      split
      · next hcalls =>
        have hcalls : callsOf reply s = [] := by simpa using hcalls
        exact hmessage.trans (c.messages_isPrefix_takeText inv reply.content
          (s := (c.noted inv reply s).withTranscript
            ⟨s.state.transcript.messages ++ [c.replyMessage inv reply s], callsOf reply s⟩) hcalls)
      · exact hmessage
  | .dispatching [] deferred => exact List.prefix_refl _
  | .dispatching (call :: calls) deferred =>
    refine List.IsPrefix.trans ?_ (c.messages_isPrefix_closeBatch inv (c.dispatchCall inv call s))
    rw [c.dispatchCall_of_pending inv h.pending rfl, transcript_settledState]
    exact c.messages_isPrefix_answered inv _ call _ _ _
  | .deferring [] => exact List.prefix_refl _
  | .deferring (call :: calls) =>
    rw [stride, strideDeferral, Transcript.pushToolResult_of_pending h.pending]
    exact List.prefix_append _ _
  | .closing =>
    rw [stride, closeTurn_eq]
    split <;> exact List.prefix_refl _

variable {c inv}

/-- The messages that a stride leads to are still there at the end. -/
theorem Finishes.messages_isPrefix {journal : Journal} {s' : Stand M G B X} {flow : Flow}
    (h : c.Finishes inv phase past s journal s' flow) (hreaches : c.Reaches inv w phase past s) :
    (c.stride inv phase s).1.stand.state.transcript.messages <+:
      s'.state.transcript.messages := by
  induction h with
  | last hflow => exact List.prefix_refl _
  | stride hflow hrest ih =>
    have hnext := Reaches.stride hreaches hflow
    exact (c.messages_isPrefix_stride inv (awaits_of_reaches hnext)).trans (ih hnext)

/-! ## How a run ends -/

/-- A run ends in a failure of its conversation when its last stride does. -/
theorem ending_reportOf_eq_failed_iff {error : TranscriptError} {journal : Journal} {flow : Flow} :
    (reportOf inv w journal s flow).ending = .failed (.transcript error) ↔
      flow = .failed (.transcript error) := by
  cases flow <;> simp [reportOf, endingOf]

end Controller

/-- The conversation that a run hands back. -/
def Ending.transcript? : Ending → Option (List Message)
  | finished result => some result.transcript
  | failed (.cancelled progress) => some progress.transcript
  | _ => none

namespace Controller

variable {M G B X : Type} (c : Controller M G B X) (inv : Invocation)

/-- A conversation that a run hands back is the one that it stands at. -/
theorem eq_messages_of_transcript? {started : Nat} {s : Stand M G B X} {flow : Flow}
    {messages : List Message}
    (hfailed : ∀ error, flow = .failed error → ∃ fault, error = .model fault)
    (h : (endingOf inv started s flow).transcript? = some messages) :
    messages = s.state.transcript.messages := by
  cases flow with
  | stop reason output => exact (Option.some.inj h).symm
  | cancelled => exact (Option.some.inj h).symm
  | failed error =>
    obtain ⟨fault, rfl⟩ := hfailed error rfl
    cases h
  | _ => cases h

variable {c inv}

/-- The messages that a stride of a run leads to are found in the conversation that the run hands
back. -/
theorem Reaches.messages_isPrefix_run {w : World M G B X} {phase : Phase} {past : Journal}
    {s : Stand M G B X} (h : c.Reaches inv w phase past s) {messages : List Message}
    (hback : (c.run inv w).ending.transcript? = some messages) :
    (c.stride inv phase s).1.stand.state.transcript.messages <+: messages := by
  rcases c.run_cases inv w with ⟨error, -, hrun⟩ | ⟨journal, s', flow, hends, hrun⟩
  · rw [hrun] at hback
    cases hback
  · rw [hrun] at hback
    rcases discipline_of_ends hends with ⟨-, -, hfailed⟩ | ⟨-, -, id, -, -, hflow⟩
    · rw [eq_messages_of_transcript? inv hfailed hback]
      exact (h.finishes hends).messages_isPrefix h
    · subst hflow
      cases hback

variable (c inv)

/-! ## A run of one turn -/

/-- A controller of one turn, whose model gives this reply and whose tools answer at once. -/
def singleTurn (gate : Gate G) (reply : ModelReply) : Controller Unit G Unit Unit where
  config := { LoopConfig.default with maxIterations := 1 }
  model := { ask := fun _ m => (.now (.ok reply), m) }
  gate
  budget := .none
  executor := { execute := fun _ _ _ x => (.now (.success "done"), x) }
  resolver := .passThrough
  context := .unrestricted
  epoch := default

/-- A gate that allows everything. -/
def openGate : Gate Unit where
  authorize _ _ _ _ _ g := (.allowed, g)
  audit _ _ _ _ _ g := g

/-- The world of such a controller at time zero. -/
def idle (gate : G) : World Unit G Unit Unit := ⟨0, (), gate, (), ()⟩

/-- A run of a task in two messages, which nobody cancels. -/
def task : Invocation where
  id := "run"
  traceId := "trace"
  messageId := Nat.repr
  seed := [.system default "You are an agent.", .user default "Do the task."]
  tools := []
  cancel := none

/-- A reply with an id that is made for its second call, whose own id is blank. -/
def collidingReply : ModelReply := .calls "" [⟨"call_1_1", "weather", ""⟩, ⟨"", "weather", ""⟩]

/-- A reply with the same id for both of its calls. -/
def repeatedIdReply : ModelReply := .calls "" [⟨"a", "weather", ""⟩, ⟨"a", "weather", ""⟩]

/-! ## Results -/

/-- A run that takes over its messages fails on its conversation exactly when a reply comes in that
keeps, for one of its calls, the id made for a later one; two calls of the reply then share this id.
Blank ids never reach the conversation. -/
theorem transcript_failure_iff (w : World M G B X) {t : Transcript}
    (hadopt : Transcript.adopt (c.stamps inv w.now) inv.seed = .ok t) :
    ((∃ error, (c.run inv w).ending = .failed (.transcript error)) ↔
      ∃ n reply, (c.run inv w).journal.replies[n]? = some reply ∧
        MadeIdTaken (n + 1) reply.toolCalls) ∧
    (∀ error, (c.run inv w).ending = .failed (.transcript error) →
      ∃ id, error = .duplicateCallId id) ∧
    ∀ iteration calls,
      (∀ call ∈ normalizeCalls iteration calls, Text.allBlank call.id = false) ∧
        (((normalizeCalls iteration calls).map ToolCall.id).Nodup ↔
          ¬ MadeIdTaken iteration calls) := by
  obtain ⟨journal, s, flow, hends, hrun⟩ := c.exists_ends inv w hadopt
  simp only [hrun, Journal.replies, pick_reportOf inv Journal.skipsReports_reply?,
    ending_reportOf_eq_failed_iff]
  have hids : ∀ iteration calls,
      (∀ call ∈ normalizeCalls iteration calls, Text.allBlank call.id = false) ∧
        (((normalizeCalls iteration calls).map ToolCall.id).Nodup ↔
          ¬ MadeIdTaken iteration calls) :=
    fun iteration calls => ⟨fun call => not_allBlank_normalizeCalls, nodup_normalizeCalls_iff⟩
  rcases discipline_of_ends hends with
    ⟨hdiffer, -, hfailed⟩ | ⟨n, reply, id, hreply, htaken, hflow⟩
  · have hne : ∀ error, flow ≠ .failed (.transcript error) := by
      intro error hflow
      obtain ⟨fault, hfault⟩ := hfailed _ hflow
      cases hfault
    refine ⟨⟨?_, ?_⟩, fun error hflow => absurd hflow (hne error), hids⟩
    · rintro ⟨error, hflow⟩
      exact absurd hflow (hne error)
    · rintro ⟨n, reply, hreply, htaken⟩
      exact absurd htaken (hdiffer n reply hreply)
  · refine ⟨⟨fun _ => ⟨n, reply, hreply, htaken⟩, fun _ => ⟨_, hflow⟩⟩, ?_, hids⟩
    intro error hflow'
    cases hflow.symm.trans hflow'
    exact ⟨id, rfl⟩

/-- The first reply of this run keeps the id made for its second call, and the run fails on it. -/
theorem transcript_failure_collidingReply :
    (∃ error, ((singleTurn openGate collidingReply).run task (idle ())).ending =
      .failed (.transcript error)) ∧
    ∃ n reply, ((singleTurn openGate collidingReply).run task (idle ())).journal.replies[n]? =
      some reply ∧ MadeIdTaken (n + 1) reply.toolCalls := by
  have hfailed : ∃ error, ((singleTurn openGate collidingReply).run task (idle ())).ending =
      .failed (.transcript error) :=
    ⟨.duplicateCallId "call_1_1", by decide⟩
  have hresult := (singleTurn openGate collidingReply).transcript_failure_iff task (idle ())
    (t := ⟨task.seed, []⟩) rfl
  exact ⟨hfailed, hresult.1.1 hfailed⟩

/-- The messages that a run begins with may be fine, and still it may fail on its conversation. -/
theorem exists_transcript_failure :
    Transcript.adopt ((singleTurn openGate collidingReply).stamps task (idle ()).now) task.seed =
        .ok ⟨task.seed, []⟩ ∧
      ((singleTurn openGate collidingReply).run task (idle ())).ending =
        .failed (.transcript (.duplicateCallId "call_1_1")) := by
  decide

/-- A conversation that a run hands back is in good order, and another run can begin with it. -/
theorem inGoodOrder_run (w : World M G B X) {messages : List Message}
    (h : (c.run inv w).ending.transcript? = some messages) :
    InGoodOrder messages ∧ ∀ stamps, ∃ t, Transcript.adopt stamps messages = .ok t := by
  have horder : InGoodOrder messages := by
    rcases c.run_cases inv w with ⟨error, -, hrun⟩ | ⟨journal, s, flow, hends, hrun⟩
    · rw [hrun] at h
      cases h
    · rw [hrun] at h
      rcases discipline_of_ends hends with ⟨-, hawaits, hfailed⟩ | ⟨-, -, id, -, -, hflow⟩
      · rw [eq_messages_of_transcript? inv hfailed h]
        exact hawaits.sound.inGoodOrder hawaits.pending
      · subst hflow
        cases h
  exact ⟨horder, fun stamps => Transcript.exists_adopt_of_inGoodOrder stamps horder⟩

/-- A run that ends after two calls with the same id hands back five messages in good order. -/
theorem inGoodOrder_run_repeatedId :
    ∃ messages, ((singleTurn openGate repeatedIdReply).run task (idle ())).ending.transcript? =
        some messages ∧ messages.length = 5 ∧ InGoodOrder messages := by
  have hlength : ((singleTurn openGate repeatedIdReply).run task (idle ())).ending.transcript?.map
      List.length = some 5 := by
    decide
  obtain ⟨messages, hback, hfive⟩ := Option.map_eq_some_iff.1 hlength
  have hresult := (singleTurn openGate repeatedIdReply).inGoodOrder_run task (idle ()) hback
  exact ⟨messages, hback, hfive, hresult.1⟩

end Controller

end AgentLoop
