import AgentLoop.Proofs.Turns

/-!
# When an answer is accepted

With double confirmation a text is accepted as the answer when the reply right before it is a text
too; without it, every text is.  Between two texts the run asks for the confirmation, and nothing
else is said in the name of the user.

* `Confirmed` says that the last of some replies is an accepted answer.
* `Exchange` is what a reply becomes in the conversation when the run goes on after it, and `Told`
  is a conversation made of the exchanges of some replies.
* Strides.  Most of them take no reply in: `messages_stride_or` and `awaitingConfirmation_stride`
  say that there only tools speak, and that the mark of a text to be confirmed is kept.
* `Controller.Dealt` is the invariant of the replies that a run has dealt with, and
  `dealt_of_reaches` says that it holds at every point.
* `Controller.Concludes` is what it leads to at the end, and `completed_iff_confirmed` reads the
  results off there.
-/

namespace AgentLoop

/-! ## Texts and answers -/

/-- The reply is only a text. -/
def ModelReply.isText (reply : ModelReply) : Bool := reply.toolCalls.isEmpty

theorem ModelReply.isText_iff {reply : ModelReply} :
    reply.isText = true ↔ reply.toolCalls = [] := List.isEmpty_iff

theorem ModelReply.isText_eq_false_iff {reply : ModelReply} :
    reply.isText = false ↔ reply.toolCalls ≠ [] := List.isEmpty_eq_false_iff

/-- The last of these replies is a text. -/
def EndsInText (replies : List ModelReply) : Prop :=
  ∃ earlier reply, replies = earlier ++ [reply] ∧ reply.isText = true

/-- The last of these replies is a text that is accepted as the answer: when a text has to be
confirmed, the reply before it is a text too. -/
def Confirmed : (double : Bool) → List ModelReply → Prop
  | true, replies => ∃ earlier draft answer, replies = earlier ++ [draft, answer] ∧
      draft.isText = true ∧ answer.isText = true
  | false, replies => EndsInText replies

theorem not_endsInText_nil : ¬ EndsInText [] := by
  rintro ⟨earlier, reply, h, -⟩
  simp at h

@[simp] theorem endsInText_concat_iff {replies : List ModelReply} {reply : ModelReply} :
    EndsInText (replies ++ [reply]) ↔ reply.isText = true := by
  constructor
  · rintro ⟨earlier, other, h, hother⟩
    obtain ⟨-, rfl⟩ := List.append_singleton_inj.1 h
    exact hother
  · exact fun h => ⟨replies, reply, rfl, h⟩

theorem not_confirmed_nil {double : Bool} : ¬ Confirmed double [] := by
  cases double with
  | true =>
    rintro ⟨earlier, draft, answer, h, -⟩
    simp at h
  | false => exact not_endsInText_nil

/-- A reply is accepted when it is a text, and comes after a text if it has to. -/
theorem confirmed_concat_iff {double : Bool} {replies : List ModelReply} {reply : ModelReply} :
    Confirmed double (replies ++ [reply]) ↔
      reply.isText = true ∧ (double = true → EndsInText replies) := by
  cases double with
  | false => simp [Confirmed]
  | true =>
    constructor
    · rintro ⟨earlier, draft, answer, h, hdraft, hanswer⟩
      have hsplit : replies ++ [reply] = (earlier ++ [draft]) ++ [answer] := by simpa using h
      obtain ⟨rfl, rfl⟩ := List.append_singleton_inj.1 hsplit
      exact ⟨hanswer, fun _ => ⟨earlier, draft, rfl, hdraft⟩⟩
    · rintro ⟨hreply, hlast⟩
      obtain ⟨earlier, draft, rfl, hdraft⟩ := hlast rfl
      exact ⟨earlier, draft, reply, by simp, hdraft, hreply⟩

/-! ## Exchanges -/

/-- The message gives the reply, with usable ids for its calls. -/
def Message.Gives (m : Message) (reply : ModelReply) : Prop :=
  ∃ stamp iteration,
    m = .assistant stamp reply.content (normalizeCalls iteration reply.toolCalls)

/-- The message asks for the confirmation of a text. -/
def Message.IsPrompt (m : Message) : Prop := ∃ stamp, m = .user stamp confirmationPrompt

/-- What a reply becomes in the conversation when the run goes on after it: a text and the prompt,
or a message with calls and answers of tools. -/
inductive Exchange (reply : ModelReply) : List Message → Prop where
  | text {m prompt : Message} (htext : reply.isText = true) (hm : m.Gives reply)
      (hprompt : prompt.IsPrompt) : Exchange reply [m, prompt]
  | calls {m : Message} {answers : List Message} (hcalls : reply.isText = false)
      (hm : m.Gives reply) (hanswers : ∀ a ∈ answers, a.role = .tool) :
      Exchange reply (m :: answers)

namespace Transcript

/-- The second conversation goes on where the first one ends, and only tools speak. -/
def GoesOn (t t' : Transcript) : Prop :=
  ∃ answers, t'.messages = t.messages ++ answers ∧ ∀ a ∈ answers, a.role = .tool

theorem GoesOn.refl (t : Transcript) : t.GoesOn t :=
  ⟨[], (List.append_nil _).symm, by simp⟩

theorem GoesOn.trans {t t' t'' : Transcript} (h : t.GoesOn t') (h' : t'.GoesOn t'') :
    t.GoesOn t'' := by
  obtain ⟨answers, hmessages, hanswers⟩ := h
  obtain ⟨answers', hmessages', hanswers'⟩ := h'
  refine ⟨answers ++ answers', by rw [hmessages', hmessages, List.append_assoc], fun a ha => ?_⟩
  rcases List.mem_append.1 ha with ha | ha
  · exact hanswers a ha
  · exact hanswers' a ha

theorem role_of_mem_answers {stamps : Stamps} {content : String} {n : Nat} {calls : List ToolCall}
    {a : Message} (h : a ∈ answers stamps content n calls) : a.role = .tool := by
  induction calls generalizing n with
  | nil => cases h
  | cons call calls ih =>
    rcases List.mem_cons.1 h with rfl | h
    · rfl
    · exact ih h

theorem goesOn_closePending (stamps : Stamps) (t : Transcript) (content : String) :
    t.GoesOn (t.closePending stamps content) :=
  ⟨_, rfl, fun _ => role_of_mem_answers⟩

/-- The last message of the assistant. -/
theorem lastAssistant?_of_messages {t : Transcript} {before : List Message} {m : Message}
    (h : t.messages = before ++ [m]) (hm : m.role = .assistant) : t.lastAssistant? = some m := by
  rw [lastAssistant?, h, List.reverse_append]
  simp [hm]

theorem goesOn_toolResult (t : Transcript) (stamp : Stamp) (call : ToolCall) (content : String)
    (calls : List ToolCall) :
    t.GoesOn ⟨t.messages ++ [.toolResult stamp call content], calls⟩ := by
  refine ⟨_, rfl, fun a ha => ?_⟩
  rw [List.mem_singleton.1 ha]
  rfl

end Transcript

/-- A conversation that begins with the messages `seed` and goes on with the exchanges of some
replies. -/
inductive Told (seed : List Message) : List ModelReply → List Message → Prop where
  | nothing : Told seed [] seed
  | exchange {replies : List ModelReply} {reply : ModelReply} {messages block : List Message}
      (htold : Told seed replies messages) (hblock : Exchange reply block) :
      Told seed (replies ++ [reply]) (messages ++ block)

namespace Told

variable {seed messages : List Message} {replies : List ModelReply} {reply : ModelReply}

/-- The exchange of the last reply comes last. -/
theorem of_concat (h : Told seed (replies ++ [reply]) messages) :
    ∃ earlier block, messages = earlier ++ block ∧ Told seed replies earlier ∧
      Exchange reply block := by
  generalize hall : replies ++ [reply] = all at h
  cases h with
  | nothing => simp at hall
  | exchange htold hblock =>
    obtain ⟨rfl, rfl⟩ := List.append_singleton_inj.1 hall
    exact ⟨_, _, rfl, htold, hblock⟩

/-- More answers of tools can come after a reply with calls. -/
theorem goesOn {t t' : Transcript} (h : Told seed (replies ++ [reply]) t.messages)
    (hcalls : reply.isText = false) (hgoesOn : t.GoesOn t') :
    Told seed (replies ++ [reply]) t'.messages := by
  obtain ⟨before, block, hmessages, htold, hblock⟩ := h.of_concat
  obtain ⟨answers, hnext, hanswers⟩ := hgoesOn
  rw [hnext, hmessages, List.append_assoc]
  refine .exchange htold ?_
  cases hblock with
  | text htext => simp [htext] at hcalls
  | calls _ hm hgiven =>
    refine .calls hcalls hm fun a ha => ?_
    rcases List.mem_append.1 ha with ha | ha
    · exact hgiven a ha
    · exact hanswers a ha

/-- A text is followed by the prompt. -/
theorem of_endsInText (h : Told seed (replies ++ [reply]) messages) (htext : reply.isText = true) :
    ∃ earlier m prompt, messages = earlier ++ [m, prompt] ∧ m.Gives reply ∧ prompt.IsPrompt := by
  obtain ⟨earlier, block, rfl, -, hblock⟩ := h.of_concat
  cases hblock with
  | text _ hm hprompt => exact ⟨earlier, _, _, rfl, hm, hprompt⟩
  | calls hcalls => simp [htext] at hcalls

end Told

namespace Controller

variable {M G B X : Type} (c : Controller M G B X) (inv : Invocation) {s : Stand M G B X}

/-! ## Strides that take no reply in -/

theorem goesOn_answered (now : Nat) (call : ToolCall) (fate : Fate) (rest : List ToolCall)
    (t : Transcript) : t.GoesOn (c.answered inv now call fate rest t) := by
  cases fate with
  | blocked => exact .refl t
  | cancelled =>
    exact (t.goesOn_toolResult _ call _ rest).trans (Transcript.goesOn_closePending _ _ _)
  | _ => exact t.goesOn_toolResult _ call _ rest

theorem goesOn_closeBatch (st : Stretch M G B X) :
    st.stand.state.transcript.GoesOn (c.closeBatch inv st).stand.state.transcript := by
  rw [closeBatch]
  split
  · exact Transcript.goesOn_closePending _ _ _
  · exact .refl _

/-- Where no reply is taken in, nothing is said, or tools answer the open calls. -/
theorem messages_stride_or {phase : Phase} (h : s.state.transcript.Awaits phase.open)
    (hphase : ∀ reply, phase ≠ .replied reply) :
    (c.stride inv phase s).1.stand.state.transcript.messages = s.state.transcript.messages ∨
      phase.open ≠ [] ∧
        s.state.transcript.GoesOn (c.stride inv phase s).1.stand.state.transcript := by
  match phase with
  | .turn =>
    have hasks := c.asks_askModel inv s
    rw [stride]
    generalize c.askModel inv s = asked at hasks ⊢
    cases hasks <;> exact .inl rfl
  | .replied reply => exact absurd rfl (hphase reply)
  | .dispatching [] deferred => exact .inl rfl
  | .dispatching (call :: calls) deferred =>
    refine .inr ⟨by simp [Phase.open], ?_⟩
    refine Transcript.GoesOn.trans ?_ (c.goesOn_closeBatch inv (c.dispatchCall inv call s))
    rw [c.dispatchCall_of_pending inv h.pending rfl, transcript_settledState]
    exact c.goesOn_answered inv _ call _ _ _
  | .deferring [] => exact .inl rfl
  | .deferring (call :: calls) =>
    refine .inr ⟨by simp [Phase.open], ?_⟩
    rw [stride, strideDeferral, Transcript.pushToolResult_of_pending h.pending]
    exact Transcript.goesOn_toolResult _ _ call _ calls
  | .closing =>
    rw [stride, closeTurn_eq]
    split <;> exact .inl rfl

/-- Only a reply sets or clears the mark of a text that is to be confirmed. -/
theorem awaitingConfirmation_stride {phase : Phase} (h : s.state.transcript.Awaits phase.open)
    (hphase : ∀ reply, phase ≠ .replied reply) :
    (c.stride inv phase s).1.stand.state.awaitingConfirmation = s.state.awaitingConfirmation := by
  rcases phase.dispatching_or with ⟨call, calls, deferred, rfl⟩ | hcall
  · obtain ⟨t, hstate⟩ := c.exists_state_dispatch inv h.pending
    rw [hstate, Fate.count]
    split <;> rfl
  · obtain ⟨t, n, hstate⟩ := c.exists_state_stride inv (s := s) hphase hcall
    rw [hstate]

/-- Calls that are still open were open before, unless a reply was taken in. -/
theorem open_of_open_stride {phase : Phase} (hphase : ∀ reply, phase ≠ .replied reply)
    (hopen : (c.stride inv phase s).2.open ≠ []) : phase.open ≠ [] := by
  match phase with
  | .turn =>
    refine absurd ?_ hopen
    rw [stride]
    cases c.askModel inv s <;> rfl
  | .replied reply => exact absurd rfl (hphase reply)
  | .dispatching [] deferred => exact hopen
  | .dispatching (call :: calls) deferred => simp [Phase.open]
  | .deferring [] => exact hopen
  | .deferring (call :: calls) => simp [Phase.open]
  | .closing => exact hopen

/-! ## The stride that takes a reply in -/

theorem gives_replyMessage (reply : ModelReply) (s : Stand M G B X) :
    (c.replyMessage inv reply s).Gives reply := ⟨_, _, rfl⟩

/-- A text and the prompt that is said to it. -/
theorem messages_prompted (reply : ModelReply) (s : Stand M G B X) :
    (c.prompted inv reply s).state.transcript.messages =
      s.state.transcript.messages ++ [c.replyMessage inv reply s, c.promptMessage inv reply s] :=
  List.append_assoc _ _ _

theorem exchange_prompted {reply : ModelReply} (htext : reply.isText = true)
    (s : Stand M G B X) :
    Exchange reply [c.replyMessage inv reply s, c.promptMessage inv reply s] :=
  .text htext (c.gives_replyMessage inv reply s) ⟨_, rfl⟩

/-! ## Replies that a run has dealt with -/

variable {c inv}

/-- The replies that a run has dealt with.  None of them was accepted as the answer, the run
remembers whether the last one is a text, and the conversation is made of their exchanges. -/
structure Dealt (c : Controller M G B X) (seed : List Message) (phase : Phase) (past : Journal)
    (s : Stand M G B X) (replies : List ModelReply) : Prop where
  replies_eq : past.replies = replies ++ phase.incoming
  unconfirmed : NoPrefix (Confirmed c.config.doubleConfirmation) replies
  awaiting : s.state.awaitingConfirmation = true ↔ EndsInText replies
  told : Told seed replies s.state.transcript.messages
  calls : phase.open ≠ [] → ∃ earlier reply, replies = earlier ++ [reply] ∧ reply.isText = false

namespace Dealt

variable {seed : List Message} {w : World M G B X} {phase : Phase} {past : Journal}
  {replies : List ModelReply} {reply : ModelReply}

/-- A reply is accepted when it is a text and the run does not ask for its confirmation. -/
theorem confirmed_concat_iff (h : Dealt c seed phase past s replies) (reply : ModelReply) :
    Confirmed c.config.doubleConfirmation (replies ++ [reply]) ↔
      reply.isText = true ∧ needsConfirmation c.config s.state = false := by
  rw [AgentLoop.confirmed_concat_iff, ← h.awaiting, needsConfirmation]
  simp

/-- Where no reply is taken in, the replies that were dealt with stay the same. -/
theorem keep (h : Dealt c seed phase past s replies) (hreaches : c.Reaches inv w phase past s)
    (hphase : ∀ reply, phase ≠ .replied reply) :
    Dealt c seed (c.stride inv phase s).2 (past ++ (c.stride inv phase s).1.journal)
      (c.stride inv phase s).1.stand replies where
  replies_eq := by
    rw [replies_of_reaches_stride hreaches, h.replies_eq, Phase.incoming_eq_nil hphase,
      List.append_nil]
  unconfirmed := h.unconfirmed
  awaiting := by
    rw [c.awaitingConfirmation_stride inv (awaits_of_reaches hreaches) hphase]
    exact h.awaiting
  told := by
    rcases c.messages_stride_or inv (awaits_of_reaches hreaches) hphase with hsame | ⟨hopen, hnext⟩
    · rw [hsame]
      exact h.told
    · obtain ⟨earlier, reply, rfl, hreply⟩ := h.calls hopen
      exact h.told.goesOn hreply hnext
  calls := fun hopen => h.calls (c.open_of_open_stride inv hphase hopen)

/-- A reply that is taken in has been dealt with when the run goes on. -/
theorem takeReply (h : Dealt c seed (.replied reply) past s replies)
    (hreaches : c.Reaches inv w (.replied reply) past s)
    (hflow : (c.stride inv (.replied reply) s).1.flow = .goOn) :
    Dealt c seed (c.stride inv (.replied reply) s).2
      (past ++ (c.stride inv (.replied reply) s).1.journal)
      (c.stride inv (.replied reply) s).1.stand (replies ++ [reply]) := by
  have hreplies := replies_of_reaches_stride hreaches
  rw [h.replies_eq] at hreplies
  have hconfirmed := h.confirmed_concat_iff reply
  have htakes := c.takes_strideReply inv reply s
  rw [stride] at hflow hreplies ⊢
  generalize c.strideReply inv reply s = taken at htakes hflow hreplies ⊢
  cases htakes with
  | refused | accepted => cases hflow
  | prompted htext hneeds =>
    have htext := ModelReply.isText_iff.2 htext
    exact
      { replies_eq := hreplies
        unconfirmed := h.unconfirmed.concat (by simp [hconfirmed, hneeds])
        awaiting := iff_of_true rfl (endsInText_concat_iff.2 htext)
        told := by
          rw [messages_prompted]
          exact h.told.exchange (c.exchange_prompted inv htext s)
        calls := fun hopen => absurd rfl hopen }
  | calls hcalls =>
    have hcalls := ModelReply.isText_eq_false_iff.2 hcalls
    have hnoText : ¬ EndsInText (replies ++ [reply]) := by simp [hcalls]
    exact
      { replies_eq := hreplies
        unconfirmed := h.unconfirmed.concat (by simp [hconfirmed, hcalls])
        awaiting := iff_of_false Bool.false_ne_true hnoText
        told := h.told.exchange (.calls hcalls (c.gives_replyMessage inv reply s) (by simp))
        calls := fun _ => ⟨replies, reply, rfl, hcalls⟩ }

end Dealt

/-- At every point a run has dealt with all replies, but for one that it is about to take in. -/
theorem dealt_of_reaches {w : World M G B X} {phase : Phase} {past : Journal} {t : Transcript}
    (hadopt : Transcript.adopt (c.stamps inv w.now) inv.seed = .ok t)
    (h : c.Reaches inv w phase past s) : ∃ replies, Dealt c t.messages phase past s replies := by
  induction h with
  | begin hadopt' =>
    cases hadopt.symm.trans hadopt'
    refine ⟨[], ?_, .nil not_confirmed_nil, ?_, .nothing, fun hopen => absurd rfl hopen⟩
    · exact c.pick_opening inv Journal.skipsReports_reply? w t
    · simpa [LoopState.begin] using not_endsInText_nil
  | @stride phase past s hpast hflow ih =>
    obtain ⟨replies, hdealt⟩ := ih
    rcases phase.replied_or with ⟨reply, rfl⟩ | hphase
    · exact ⟨_, hdealt.takeReply hpast hflow⟩
    · exact ⟨_, hdealt.keep hpast hphase⟩

/-! ## The end of a run -/

/-- The ways in which a run comes to its end, as far as its replies are concerned. -/
inductive Concludes (c : Controller M G B X) (seed : List Message) (replies : List ModelReply)
    (messages : List Message) : Flow → Prop where
  /-- No reply was accepted. -/
  | unanswered {flow : Flow}
      (hunconfirmed : NoPrefix (Confirmed c.config.doubleConfirmation) replies)
      (htold : Told seed replies messages)
      (hflow : ∀ output, flow ≠ .stop .completed output) : Concludes c seed replies messages flow
  /-- The last reply was accepted. -/
  | answered {earlier : List ModelReply} {answer : ModelReply} {before : List Message} {m : Message}
      (hreplies : replies = earlier ++ [answer])
      (hearlier : NoPrefix (Confirmed c.config.doubleConfirmation) earlier)
      (hconfirmed : Confirmed c.config.doubleConfirmation replies)
      (hmessages : messages = before ++ [m]) (htold : Told seed earlier before)
      (hgives : m.Gives answer) :
      Concludes c seed replies messages (.stop .completed (Answer.read answer.content))
  /-- The last reply was refused. -/
  | refused {error : TranscriptError}
      (hunconfirmed : NoPrefix (Confirmed c.config.doubleConfirmation) replies) :
      Concludes c seed replies messages (.failed (.transcript error))

/-- A run comes to its end in one of these ways. -/
theorem concludes_of_ends {w : World M G B X} {journal : Journal} {flow : Flow} {t : Transcript}
    (hadopt : Transcript.adopt (c.stamps inv w.now) inv.seed = .ok t)
    (h : c.Ends inv w journal s flow) :
    Concludes c t.messages journal.replies s.state.transcript.messages flow := by
  obtain @⟨phase, past, s, hpast, hflow⟩ := h
  have hawaits := awaits_of_reaches hpast
  obtain ⟨replies, hdealt⟩ := dealt_of_reaches hadopt hpast
  rcases phase.replied_or with ⟨reply, rfl⟩ | hphase
  · rw [replies_of_reaches_stride hpast, c.incoming_of_ne_goOn inv hflow, List.append_nil,
      hdealt.replies_eq]
    have hconfirmed := hdealt.confirmed_concat_iff reply
    have htakes := c.takes_strideReply inv reply s
    rw [stride] at hflow ⊢
    generalize c.strideReply inv reply s = taken at htakes hflow ⊢
    cases htakes with
    | prompted | calls => exact absurd rfl hflow
    | accepted htext hneeds =>
      exact .answered rfl hdealt.unconfirmed
        (hconfirmed.2 ⟨ModelReply.isText_iff.2 htext, hneeds⟩) rfl hdealt.told
        (c.gives_replyMessage inv reply s)
    | refused hpush =>
      refine .refused (hdealt.unconfirmed.concat fun hlast => ?_)
      have htext := ModelReply.isText_iff.1 (hconfirmed.1 hlast).1
      have hids : ((c.replyMessage inv reply s).toolCalls.map ToolCall.id).Nodup := by
        change ((callsOf reply s).map ToolCall.id).Nodup
        rw [callsOf_eq_nil_iff.2 htext]
        exact List.nodup_nil
      cases hpush.symm.trans
        (Transcript.pushAssistant_eq_ok_iff.2 ⟨rfl, hawaits.pending, hids, rfl⟩)
  · have hkept := hdealt.keep hpast hphase
    rw [hkept.replies_eq, c.incoming_of_ne_goOn inv hflow, List.append_nil]
    refine .unanswered hkept.unconfirmed hkept.told fun output hstop => ?_
    cases c.stops_of_flow inv hawaits.pending hstop with
    | accepted => exact hphase _ rfl

namespace Concludes

variable {seed messages : List Message} {replies : List ModelReply} {flow : Flow}

theorem completed_iff (h : Concludes c seed replies messages flow) :
    (∃ output, flow = .stop .completed output) ↔
      Confirmed c.config.doubleConfirmation replies := by
  cases h with
  | unanswered hunconfirmed htold hflow =>
    exact ⟨fun ⟨output, h⟩ => absurd h (hflow output), fun h => absurd h hunconfirmed.self⟩
  | answered _ _ hconfirmed => exact ⟨fun _ => hconfirmed, fun _ => ⟨_, rfl⟩⟩
  | refused hunconfirmed =>
    exact ⟨fun ⟨_, h⟩ => Flow.noConfusion h, fun h => absurd h hunconfirmed.self⟩

/-- No reply comes after the one that is accepted. -/
theorem eq_nil_of_confirmed {earlier later : List ModelReply}
    (h : Concludes c seed replies messages flow) (hsplit : replies = earlier ++ later)
    (hearlier : Confirmed c.config.doubleConfirmation earlier) : later = [] := by
  cases h with
  | unanswered hunconfirmed | refused hunconfirmed =>
    exact absurd hearlier (hunconfirmed _ ⟨later, hsplit.symm⟩)
  | answered hreplies hunconfirmed =>
    exact hunconfirmed.eq_nil_of_append (hreplies.symm.trans hsplit) hearlier

/-- The accepted reply, its message, and the output that is read off it. -/
theorem exists_answer {output : JsonObject}
    (h : Concludes c seed replies messages (.stop .completed output)) :
    ∃ earlier answer before m, replies = earlier ++ [answer] ∧ messages = before ++ [m] ∧
      Told seed earlier before ∧ m.Gives answer ∧ output = Answer.read answer.content := by
  generalize hflow : Flow.stop .completed output = flow at h
  cases h with
  | unanswered _ _ hne => exact absurd hflow.symm (hne output)
  | answered hreplies _ _ hmessages htold hgives =>
    cases hflow
    exact ⟨_, _, _, _, hreplies, hmessages, htold, hgives, rfl⟩
  | refused => cases hflow

/-- A text that had to be confirmed comes before the accepted one, and the prompt stands between
them. -/
theorem exists_draft {output : JsonObject} (hdouble : c.config.doubleConfirmation = true)
    (h : Concludes c seed replies messages (.stop .completed output)) :
    ∃ earlier draft answer before first prompt last, replies = earlier ++ [draft, answer] ∧
      messages = before ++ [first, prompt, last] ∧ Message.Gives first draft ∧
      Message.IsPrompt prompt ∧ Message.Gives last answer := by
  obtain ⟨earlier, answer, before, m, rfl, rfl, htold, hm, -⟩ := h.exists_answer
  have hconfirmed := h.completed_iff.1 ⟨output, rfl⟩
  obtain ⟨earlier, draft, rfl, hdraft⟩ := (AgentLoop.confirmed_concat_iff.1 hconfirmed).2 hdouble
  obtain ⟨before, first, prompt, rfl, hfirst, hprompt⟩ := htold.of_endsInText hdraft
  exact ⟨earlier, draft, answer, before, first, prompt, m, by simp, by simp, hfirst, hprompt, hm⟩

end Concludes

/-- The output of a result, read off the text of the last reply. -/
theorem output_result {seed : List Message} {replies : List ModelReply} {output : JsonObject}
    (id : String) (durationMs : Nat)
    (h : Concludes c seed replies s.state.transcript.messages (.stop .completed output)) :
    ∃ earlier answer, replies = earlier ++ [answer] ∧ output = Answer.read answer.content ∧
      output = Answer.read (s.state.result id .completed output durationMs).rawResponse := by
  obtain ⟨earlier, answer, before, m, hreplies, hmessages, -, ⟨stamp, iteration, rfl⟩, houtput⟩ :=
    h.exists_answer
  refine ⟨earlier, answer, hreplies, houtput, ?_⟩
  rw [LoopState.result, Transcript.lastAssistant?_of_messages hmessages rfl]
  exact houtput

/-- A request carries the conversation made of the replies before it. -/
theorem told_of_mem_requests {w : World M G B X} {t : Transcript} {request : ModelRequest}
    (hadopt : Transcript.adopt (c.stamps inv w.now) inv.seed = .ok t)
    (h : request ∈ (c.run inv w).journal.requests) :
    ∃ earlier, earlier <+: (c.run inv w).journal.replies ∧
      Told t.messages earlier request.messages := by
  rw [Journal.requests_eq_pick] at h
  obtain ⟨phase, past, s, hreaches, hrequest⟩ := mem_pick_run Journal.skipsReports_request? h
  obtain ⟨replies, hdealt⟩ := dealt_of_reaches hadopt hreaches
  by_cases hphase : phase = .turn
  · subst hphase
    have hmessages : request.messages = s.state.transcript.messages := by
      have hasks := c.asks_askModel inv s
      rw [stride] at hrequest
      generalize c.askModel inv s = asked at hasks hrequest
      cases hasks with
      | blocked | withdrawn => cases hrequest
      | cancelled | stalled | failed | replied =>
        rw [List.mem_singleton.1 hrequest]
        rfl
    obtain ⟨rest, hrest⟩ := hreaches.isPrefix_run
    refine ⟨replies, ?_, hmessages ▸ hdealt.told⟩
    rw [← hrest, Journal.replies_append, Journal.replies_append, hdealt.replies_eq]
    simp [Phase.incoming]
  · rw [← Journal.requests_eq_pick,
      c.requests_stride_eq_nil inv (awaits_of_reaches hreaches).pending hphase] at hrequest
    cases hrequest

variable (c inv)

/-! ## Results -/

/-- A run is completed exactly when its last reply is a confirmed answer, and no reply comes after
one.  In the conversation, as it is sent to the model and as it is handed back, every text but the
accepted one is followed by the prompt, and nothing else is said by the user.  The output is read
off the accepted text; a run that was not completed has none. -/
theorem completed_iff_confirmed (w : World M G B X) :
    ((c.run inv w).ending.reason? = some .completed ↔
        Confirmed c.config.doubleConfirmation (c.run inv w).journal.replies) ∧
      (∀ earlier later, (c.run inv w).journal.replies = earlier ++ later →
        Confirmed c.config.doubleConfirmation earlier → later = []) ∧
      (∀ t, Transcript.adopt (c.stamps inv w.now) inv.seed = .ok t →
        (∀ request ∈ (c.run inv w).journal.requests,
          ∃ earlier, earlier <+: (c.run inv w).journal.replies ∧
            Told t.messages earlier request.messages) ∧
        ∀ messages, (c.run inv w).ending.transcript? = some messages →
          ((c.run inv w).ending.reason? ≠ some .completed →
            Told t.messages (c.run inv w).journal.replies messages) ∧
          ((c.run inv w).ending.reason? = some .completed →
            ∃ earlier answer before m, (c.run inv w).journal.replies = earlier ++ [answer] ∧
              messages = before ++ [m] ∧ Told t.messages earlier before ∧ m.Gives answer)) ∧
      (c.config.doubleConfirmation = true → (c.run inv w).ending.reason? = some .completed →
        ∃ earlier draft answer before first prompt last,
          (c.run inv w).journal.replies = earlier ++ [draft, answer] ∧
            (c.run inv w).ending.transcript? = some (before ++ [first, prompt, last]) ∧
            first.Gives draft ∧ prompt.IsPrompt ∧ last.Gives answer) ∧
      ∀ result, (c.run inv w).ending.result? = some result →
        (result.terminationReason = .completed →
          ∃ earlier answer, (c.run inv w).journal.replies = earlier ++ [answer] ∧
            result.output = Answer.read answer.content ∧
            result.output = Answer.read result.rawResponse) ∧
        (result.terminationReason ≠ .completed → result.output = []) := by
  cases hadopt : Transcript.adopt (c.stamps inv w.now) inv.seed with
  | error error =>
    rw [c.run_of_adopt_eq_error inv w hadopt]
    refine ⟨⟨nofun, fun h => absurd h not_confirmed_nil⟩, ?_, nofun, fun _ => nofun, nofun⟩
    intro earlier later hsplit
    exact fun _ => (List.append_eq_nil_iff.1 hsplit.symm).2
  | ok t =>
    obtain ⟨journal, s, flow, hends, hrun⟩ := c.exists_ends inv w hadopt
    have hconcludes := concludes_of_ends hadopt hends
    have hreplies : (c.run inv w).journal.replies = journal.replies := by
      rw [hrun]
      exact pick_reportOf inv Journal.skipsReports_reply? w journal s flow
    have hcompleted : (c.run inv w).ending.reason? = some .completed ↔
        ∃ output, flow = .stop .completed output := by
      rw [hrun, reason?_reportOf_eq_some_iff]
    rw [hcompleted, hreplies]
    refine ⟨hconcludes.completed_iff, fun earlier later => hconcludes.eq_nil_of_confirmed,
      ?_, ?_, ?_⟩
    · intro t' hadopt'
      cases hadopt'
      refine ⟨fun request hrequest => hreplies ▸ told_of_mem_requests hadopt hrequest, ?_⟩
      intro messages hback
      rw [hrun] at hback
      obtain rfl := eq_messages_of_ends hends hback
      constructor
      · intro hnot
        cases hconcludes with
        | unanswered _ htold => exact htold
        | answered => exact absurd (hcompleted.2 ⟨_, rfl⟩) hnot
        | refused => cases hback
      · rintro ⟨output, rfl⟩
        obtain ⟨earlier, answer, before, m, hanswer, hmessages, htold, hm, -⟩ :=
          hconcludes.exists_answer
        exact ⟨earlier, answer, before, m, hanswer, hmessages, htold, hm⟩
    · rintro hdouble ⟨output, rfl⟩
      obtain ⟨earlier, draft, answer, before, first, prompt, last, hdraft, hmessages, hsaid⟩ :=
        hconcludes.exists_draft hdouble
      refine ⟨earlier, draft, answer, before, first, prompt, last, hdraft, ?_, hsaid⟩
      rw [hrun, ← hmessages]
      rfl
    · intro result hresult
      rw [hrun] at hresult
      obtain ⟨reason, output, rfl, rfl⟩ := result?_reportOf_eq_some_iff.1 hresult
      refine ⟨fun hreason => ?_, fun hreason => output_eq_nil_of_ends hends hreason⟩
      obtain rfl : reason = .completed := hreason
      exact output_result inv.id _ hconcludes

/-- A text, a call in between, and then the same text twice. -/
def redrafted : World Script Unit Unit Unit :=
  reciting [.text "Sunny.", callReply "a", .text "Sunny, 20C.", .text "Sunny, 20C."]

/-- The text before the call does not confirm the one after it, but the last text does. -/
theorem completed_iff_confirmed_redrafted :
    ((scripted .default (.success "20C")).run task redrafted).ending.reason? = some .completed ∧
      ((scripted .default (.success "20C")).run task redrafted).journal.replies.length = 4 ∧
      Confirmed true ((scripted .default (.success "20C")).run task redrafted).journal.replies := by
  have hreason : ((scripted .default (.success "20C")).run task redrafted).ending.reason? =
      some .completed := by
    decide +kernel
  exact ⟨hreason, by decide +kernel,
    ((scripted .default (.success "20C")).completed_iff_confirmed task redrafted).1.1 hreason⟩

end Controller

end AgentLoop
