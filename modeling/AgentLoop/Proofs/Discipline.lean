import AgentLoop.Proofs.CallIds
import AgentLoop.Proofs.Readings

/-!
# The conversation of a run

A run keeps its conversation under discipline.  At every point the calls that are open are exactly
those that the phase still has to deal with, and when a run stops or is cancelled no call is open.
The one thing that can go wrong is that a reply gets the same id for two of its calls.

There are four groups.

* `Transcript.Awaits` is the invariant of a point, `Stretch.Disciplined` says that a stretch keeps
  it.
* One lemma for each phase says that its stride is disciplined, and `disciplined_stride` puts them
  together.
* `awaits_of_reaches`, `length_replies_of_reaches` and `idsDiffer_of_reaches` are what holds at
  every point of a run.
* `discipline_of_ends`: how a run comes to its end.
-/

namespace AgentLoop

/-- A conversation under discipline, in which exactly these calls are open. -/
structure Transcript.Awaits (t : Transcript) (calls : List ToolCall) : Prop where
  sound : t.Sound
  pending : t.pending = calls

/-- A stretch keeps the conversation under discipline.  If the run goes on, these calls are open,
and if it ends, none is; and it fails only if the model does. -/
structure Stretch.Disciplined {M G B X : Type} (st : Stretch M G B X) (calls : List ToolCall) :
    Prop where
  awaits : st.stand.state.transcript.Awaits (if st.flow = .goOn then calls else [])
  failed : ∀ error, st.flow = .failed error → ∃ fault, error = .model fault

/-- The calls of every reply end up with different ids; the first reply comes in the first turn. -/
def IdsDiffer (replies : List ModelReply) : Prop :=
  ∀ n reply, replies[n]? = some reply → ¬ MadeIdTaken (n + 1) reply.toolCalls

theorem IdsDiffer.append {replies : List ModelReply} {reply : ModelReply} (h : IdsDiffer replies)
    (hlast : ¬ MadeIdTaken (replies.length + 1) reply.toolCalls) :
    IdsDiffer (replies ++ [reply]) := by
  intro n r hr
  rw [List.getElem?_append] at hr
  split at hr
  · exact h n r hr
  · next hn =>
    have hlt := (List.getElem?_eq_some_iff.1 hr).1
    rw [List.length_singleton] at hlt
    obtain rfl : n = replies.length := by omega
    rw [Nat.sub_self] at hr
    cases hr
    exact hlast

namespace Stretch

variable {M G B X : Type} {stand : Stand M G B X} {journal : Journal} {flow : Flow}
  {calls : List ToolCall}

theorem disciplined_goOn (h : stand.state.transcript.Awaits calls) :
    Disciplined ⟨stand, journal, .goOn⟩ calls :=
  ⟨by simpa using h, by simp⟩

theorem disciplined_end (h : stand.state.transcript.Awaits []) (hgoOn : flow ≠ .goOn)
    (hfailed : ∀ error, flow = .failed error → ∃ fault, error = .model fault) :
    Disciplined ⟨stand, journal, flow⟩ calls :=
  ⟨by simpa [hgoOn] using h, hfailed⟩

end Stretch

/-- Only a cancelled call has this status. -/
theorem Fate.exists_eq_cancelled {fate : Fate} (h : fate.status = .cancelled) :
    ∃ arguments, fate = .cancelled arguments := by
  cases fate with
  | cancelled arguments => exact ⟨arguments, rfl⟩
  | ended arguments outcome =>
    rw [Fate.status] at h
    split at h <;> cases h
  | _ => cases h

namespace Controller

variable {M G B X : Type} (c : Controller M G B X) (inv : Invocation) {s : Stand M G B X}

/-! ## Strides under discipline -/

/-- A turn begins. -/
theorem disciplined_turn (h : s.state.transcript.Awaits []) :
    (c.stride inv .turn s).1.Disciplined (c.stride inv .turn s).2.open := by
  have hasks := c.asks_askModel inv s
  rw [stride]
  generalize c.askModel inv s = asked at hasks ⊢
  cases hasks with
  | replied => exact Stretch.disciplined_goOn h
  | _ => exact Stretch.disciplined_end h (by simp) (by simp)

/-- A text is to be confirmed or accepted. -/
theorem disciplined_takeText (content : String) (h : s.state.transcript.Awaits []) :
    (c.takeText inv content s).Disciplined [] := by
  rw [takeText_of_pending c inv h.pending]
  split
  · exact Stretch.disciplined_goOn
      ⟨h.sound.pushUser (Transcript.pushUser_eq_ok_iff.2 ⟨h.pending, rfl⟩), rfl⟩
  · exact Stretch.disciplined_end h (by simp) (by simp)

/-- A reply can be taken in unless two of its calls get the same id. -/
theorem pushAssistant_replyMessage {reply : ModelReply} (h : s.state.transcript.Awaits [])
    (hkept : ¬ MadeIdTaken s.state.iterations reply.toolCalls) :
    s.state.transcript.pushAssistant (c.replyMessage inv reply s) =
      .ok ⟨s.state.transcript.messages ++ [c.replyMessage inv reply s], callsOf reply s⟩ :=
  Transcript.pushAssistant_eq_ok_iff.2 ⟨rfl, h.pending, nodup_normalizeCalls_iff.2 hkept, rfl⟩

/-- A reply is taken in. -/
theorem disciplined_strideReply {reply : ModelReply} (h : s.state.transcript.Awaits [])
    (hkept : ¬ MadeIdTaken s.state.iterations reply.toolCalls) :
    (c.strideReply inv reply s).1.Disciplined (c.strideReply inv reply s).2.open := by
  have hpush := c.pushAssistant_replyMessage inv h hkept
  have hsound := h.sound.pushAssistant hpush
  rw [strideReply, hpush]
  simp only
  split
  · next hcalls =>
    have hcalls : callsOf reply s = [] := by simpa using hcalls
    rw [hcalls] at hsound ⊢
    have htext : (c.takeText inv reply.content ((c.noted inv reply s).withTranscript
        ⟨s.state.transcript.messages ++ [c.replyMessage inv reply s], []⟩)).Disciplined [] :=
      c.disciplined_takeText inv reply.content ⟨hsound, rfl⟩
    exact ⟨htext.awaits, htext.failed⟩
  · refine Stretch.disciplined_goOn ⟨hsound, ?_⟩
    rw [Phase.open, List.take_append_drop]
    rfl

/-- A run fails on a reply if two of its calls get the same id. -/
theorem flow_strideReply_of_madeIdTaken {reply : ModelReply} (h : s.state.transcript.Awaits [])
    (htaken : MadeIdTaken s.state.iterations reply.toolCalls) :
    ∃ id, (c.strideReply inv reply s).1.flow = .failed (.transcript (.duplicateCallId id)) := by
  have hids : ¬ ((callsOf reply s).map ToolCall.id).Nodup := fun hnodup =>
    nodup_normalizeCalls_iff.1 hnodup htaken
  cases hrepeated : firstRepeated? [] ((callsOf reply s).map ToolCall.id) with
  | none => exact absurd (firstRepeated?_eq_none_iff.1 hrepeated).1 hids
  | some id =>
    have hpush : s.state.transcript.pushAssistant (c.replyMessage inv reply s) =
        .error (.duplicateCallId id) := by
      have hrole : (c.replyMessage inv reply s).role = .assistant := rfl
      have hcalls : (c.replyMessage inv reply s).toolCalls = callsOf reply s := rfl
      simp only [Transcript.pushAssistant, hrole, h.pending, hcalls, hrepeated, ne_eq,
        not_true_eq_false, if_false]
    exact ⟨id, by rw [strideReply, hpush]⟩

/-- The answer to a call keeps the conversation under discipline. -/
theorem sound_answered {t : Transcript} {call : ToolCall} {rest : List ToolCall} (now : Nat)
    (fate : Fate) (h : t.Awaits (call :: rest)) : (c.answered inv now call fate rest t).Sound := by
  have hgiven : (⟨t.messages ++ [.toolResult (c.stamps inv now t.length) call
      (fate.content call.name)], rest⟩ : Transcript).Sound :=
    h.sound.pushToolResult (Transcript.pushToolResult_of_pending h.pending)
  cases fate with
  | blocked => exact h.sound
  | cancelled => exact hgiven.closePending
  | _ => exact hgiven

/-- After a call the run stops, or it was cancelled and no call is open, or it goes on and the call
was answered. -/
theorem flowAfter_cases (now : Nat) (call : ToolCall) (rest : List ToolCall) (fate : Fate)
    (state : LoopState) :
    (∃ reason, c.flowAfter fate (c.settledState inv now call fate rest state) = .stop reason []) ∨
      (c.flowAfter fate (c.settledState inv now call fate rest state) = .cancelled ∧
        (c.answered inv now call fate rest state.transcript).pending = []) ∨
      (c.flowAfter fate (c.settledState inv now call fate rest state) = .goOn ∧
        (c.answered inv now call fate rest state.transcript).pending = rest) := by
  have hopen : fate.status ≠ .blocked → fate.status ≠ .cancelled →
      (c.answered inv now call fate rest state.transcript).pending = rest := by
    intro hblocked hcancelled
    cases fate with
    | blocked => exact absurd rfl hblocked
    | cancelled => exact absurd rfl hcancelled
    | _ => rfl
  have hclosed : fate.status = .cancelled →
      (c.answered inv now call fate rest state.transcript).pending = [] := by
    intro hcancelled
    obtain ⟨arguments, rfl⟩ := Fate.exists_eq_cancelled hcancelled
    rfl
  unfold flowAfter
  split
  · next hstatus => exact .inr (.inr ⟨rfl, hopen (by simp [hstatus]) (by simp [hstatus])⟩)
  · next hstatus => exact .inr (.inl ⟨rfl, hclosed hstatus⟩)
  · exact .inl ⟨_, rfl⟩
  · next hcancelled hblocked =>
    split
    · exact .inl ⟨_, rfl⟩
    · exact .inr (.inr ⟨rfl, hopen hblocked hcancelled⟩)

/-- A call is dispatched. -/
theorem disciplined_dispatchCall {call : ToolCall} {rest : List ToolCall}
    (h : s.state.transcript.Awaits (call :: rest)) :
    (c.closeBatch inv (c.dispatchCall inv call s)).Disciplined rest := by
  rcases hjudge : c.judge inv call s.world with ⟨fate, w, asked⟩
  rw [c.dispatchCall_of_pending inv h.pending hjudge, closeBatch]
  have hsound := c.sound_answered inv w.now fate h
  rcases c.flowAfter_cases inv w.now call rest fate s.state with
    ⟨reason, hflow⟩ | ⟨hflow, hpending⟩ | ⟨hflow, hpending⟩
  · simp only [hflow]
    refine Stretch.disciplined_end ⟨?_, rfl⟩ (by simp) (by simp)
    rw [Stand.transcript_withTranscript, transcript_settledState]
    exact hsound.closePending
  · simp only [hflow]
    refine Stretch.disciplined_end ⟨?_, ?_⟩ (by simp) (by simp) <;> rw [transcript_settledState]
    · exact hsound
    · exact hpending
  · simp only [hflow]
    refine Stretch.disciplined_goOn ⟨?_, ?_⟩ <;> rw [transcript_settledState]
    · exact hsound
    · exact hpending

/-- A call is deferred. -/
theorem disciplined_strideDeferral {call : ToolCall} {rest : List ToolCall}
    (h : s.state.transcript.Awaits (call :: rest)) :
    (c.strideDeferral inv call s).Disciplined rest := by
  rw [strideDeferral, Transcript.pushToolResult_of_pending h.pending]
  exact Stretch.disciplined_goOn
    ⟨h.sound.pushToolResult (Transcript.pushToolResult_of_pending h.pending), rfl⟩

/-- A turn ends. -/
theorem disciplined_closeTurn (h : s.state.transcript.Awaits []) :
    (c.closeTurn s).Disciplined [] := by
  rw [closeTurn_eq]
  split
  · exact Stretch.disciplined_end h (by simp) (by simp)
  · exact Stretch.disciplined_goOn h

/-- Every stride keeps the conversation under discipline, unless a reply comes in that gets the same
id for two of its calls. -/
theorem disciplined_stride {phase : Phase} (h : s.state.transcript.Awaits phase.open)
    (hkept : ∀ reply, phase = .replied reply → ¬ MadeIdTaken s.state.iterations reply.toolCalls) :
    (c.stride inv phase s).1.Disciplined (c.stride inv phase s).2.open := by
  match phase with
  | .turn => exact c.disciplined_turn inv h
  | .replied reply => exact c.disciplined_strideReply inv h (hkept reply rfl)
  | .dispatching [] deferred => exact Stretch.disciplined_goOn h
  | .dispatching (call :: calls) deferred => exact c.disciplined_dispatchCall inv h
  | .deferring [] => exact Stretch.disciplined_goOn h
  | .deferring (call :: calls) => exact c.disciplined_strideDeferral inv h
  | .closing => exact c.disciplined_closeTurn h

/-! ## A run under discipline -/

/-- A stride that goes on counts the reply of the next phase as one more turn. -/
theorem iterations_stride {phase : Phase} (hflow : (c.stride inv phase s).1.flow = .goOn) :
    (c.stride inv phase s).1.stand.state.iterations =
      s.state.iterations + (c.stride inv phase s).2.incoming.length := by
  match phase with
  | .turn =>
    have hasks := c.asks_askModel inv s
    rw [stride] at hflow ⊢
    generalize c.askModel inv s = asked at hasks hflow ⊢
    cases hasks with
    | replied => rfl
    | _ => cases hflow
  | .replied reply =>
    rw [stride, strideReply] at hflow ⊢
    simp only at hflow ⊢
    split
    · next hpush =>
      rw [hpush] at hflow
      cases hflow
    · split
      · exact c.iterations_takeText inv reply.content _
      · rfl
  | .dispatching [] deferred => rfl
  | .dispatching (call :: calls) deferred =>
    rw [stride]
    exact (c.iterations_closeBatch inv _).trans (c.iterations_dispatchCall inv call s)
  | .deferring [] => rfl
  | .deferring (call :: calls) =>
    rw [stride, strideDeferral]
    split <;> rfl
  | .closing =>
    rw [stride] at hflow ⊢
    exact congrArg LoopState.iterations (c.closeTurn_of_goOn hflow).1

/-- A reply comes in only at the beginning of a turn. -/
theorem incoming_stride_eq_nil {phase : Phase} (hturn : phase ≠ .turn) :
    (c.stride inv phase s).2.incoming = [] := by
  cases phase with
  | turn => exact absurd rfl hturn
  | replied reply => exact c.incoming_strideReply inv reply s
  | dispatching calls deferred => cases calls <;> rfl
  | deferring calls => cases calls <;> rfl
  | closing => rfl

/-- A reply comes in only when a run goes on. -/
theorem incoming_of_ne_goOn {phase : Phase} (hflow : (c.stride inv phase s).1.flow ≠ .goOn) :
    (c.stride inv phase s).2.incoming = [] := by
  by_cases hturn : phase = .turn
  · subst hturn
    rw [stride] at hflow ⊢
    cases hask : c.askModel inv s with
    | ended stretch => rfl
    | reply reply s' journal =>
      rw [hask] at hflow
      exact absurd rfl hflow
  · exact c.incoming_stride_eq_nil inv hturn

/-- A run that goes on after a reply has given its calls different ids. -/
theorem kept_of_goOn {phase : Phase} (h : s.state.transcript.Awaits phase.open)
    (hflow : (c.stride inv phase s).1.flow = .goOn) :
    ∀ reply, phase = .replied reply → ¬ MadeIdTaken s.state.iterations reply.toolCalls := by
  rintro reply rfl htaken
  obtain ⟨id, hfailed⟩ := c.flow_strideReply_of_madeIdTaken inv h htaken
  cases hfailed.symm.trans hflow

variable {c inv} {w : World M G B X} {phase : Phase} {past : Journal}

/-- At every point the open calls are those of the phase. -/
theorem awaits_of_reaches (h : c.Reaches inv w phase past s) :
    s.state.transcript.Awaits phase.open := by
  induction h with
  | begin hadopt =>
    obtain ⟨hsound, hpending⟩ := Transcript.sound_of_adopt hadopt
    exact ⟨hsound, hpending⟩
  | stride hpast hflow ih =>
    have hnext := (c.disciplined_stride inv ih (c.kept_of_goOn inv ih hflow)).awaits
    rwa [if_pos hflow] at hnext

/-- A stride adds the reply of the next phase to the replies of a run. -/
theorem replies_of_reaches_stride (h : c.Reaches inv w phase past s) :
    (past ++ (c.stride inv phase s).1.journal).replies =
      past.replies ++ (c.stride inv phase s).2.incoming := by
  rw [Journal.replies_append, c.replies_stride inv (awaits_of_reaches h).pending]

/-- The reply that a phase is about is the last one. -/
theorem exists_replies_of_reaches (h : c.Reaches inv w phase past s) :
    ∃ earlier, past.replies = earlier ++ phase.incoming := by
  cases h with
  | begin hadopt => exact ⟨_, (List.append_nil _).symm⟩
  | stride hpast hflow => exact ⟨_, replies_of_reaches_stride hpast⟩

/-- At every point there was one reply for each turn. -/
theorem length_replies_of_reaches (h : c.Reaches inv w phase past s) :
    past.replies.length = s.state.iterations := by
  induction h with
  | begin hadopt =>
    rw [Journal.replies, c.pick_opening inv Journal.skipsReports_reply?]
    rfl
  | stride hpast hflow ih =>
    rw [replies_of_reaches_stride hpast, List.length_append, ih, c.iterations_stride inv hflow]

/-- The calls of all replies up to here got different ids, if those of the reply that came in last
do. -/
theorem idsDiffer_of_reaches (h : c.Reaches inv w phase past s)
    (hkept : ∀ reply, phase = .replied reply →
      ¬ MadeIdTaken s.state.iterations reply.toolCalls) :
    IdsDiffer past.replies := by
  induction h with
  | begin hadopt =>
    rw [Journal.replies, c.pick_opening inv Journal.skipsReports_reply?]
    rintro n reply hreply
    cases hreply
  | @stride phase past s hpast hflow ih =>
    have hbefore := ih (c.kept_of_goOn inv (awaits_of_reaches hpast) hflow)
    have hcount := c.iterations_stride inv hflow
    rw [replies_of_reaches_stride hpast]
    generalize (c.stride inv phase s).2 = next at hkept hcount ⊢
    cases next with
    | replied reply =>
      refine hbefore.append ?_
      rw [length_replies_of_reaches hpast]
      exact hcount ▸ hkept reply rfl
    | _ => simpa [Phase.incoming] using hbefore

/-- A run comes to its end with no call open, or it fails on the last reply, which gets the same id
for two of its calls. -/
theorem discipline_of_ends {flow : Flow} (h : c.Ends inv w past s flow) :
    (IdsDiffer past.replies ∧ s.state.transcript.Awaits [] ∧
        ∀ error, flow = .failed error → ∃ fault, error = .model fault) ∨
      ∃ n reply id, past.replies[n]? = some reply ∧ MadeIdTaken (n + 1) reply.toolCalls ∧
        flow = .failed (.transcript (.duplicateCallId id)) := by
  obtain @⟨phase, past, s, hpast, hflow⟩ := h
  have hawaits := awaits_of_reaches hpast
  rw [replies_of_reaches_stride hpast, c.incoming_of_ne_goOn inv hflow, List.append_nil]
  by_cases htaken :
      ∃ reply, phase = .replied reply ∧ MadeIdTaken s.state.iterations reply.toolCalls
  · obtain ⟨reply, rfl, htaken⟩ := htaken
    obtain ⟨id, hfailed⟩ := c.flow_strideReply_of_madeIdTaken inv hawaits htaken
    obtain ⟨earlier, hreplies⟩ := exists_replies_of_reaches hpast
    have hcount : earlier.length + 1 = s.state.iterations := by
      rw [← length_replies_of_reaches hpast, hreplies, List.length_append]
      rfl
    refine .inr ⟨earlier.length, reply, id, ?_, ?_, hfailed⟩
    · rw [hreplies, List.getElem?_append_right (Nat.le_refl _), Nat.sub_self]
      rfl
    · rwa [hcount]
  · have hkept : ∀ reply, phase = .replied reply →
        ¬ MadeIdTaken s.state.iterations reply.toolCalls :=
      fun reply hphase h => htaken ⟨reply, hphase, h⟩
    have hdisciplined := c.disciplined_stride inv hawaits hkept
    refine .inl ⟨idsDiffer_of_reaches hpast hkept, ?_, hdisciplined.failed⟩
    have hend := hdisciplined.awaits
    rwa [if_neg hflow] at hend

end Controller

end AgentLoop
