import AgentLoop.Proofs.Confirmation

/-!
# What the model is shown

Every time a run asks the model it shows it the whole conversation so far, in which no call is open.
From one request to the next the conversation grows by a round: the reply of the model as it was
given, and what the run has to say to it, which is one answer for each of its calls, or the prompt
to confirm a text.

* `Round` is what a reply and the run add to the conversation, and a `Dialogue` is a conversation
  made of rounds, with what the model was shown before each of them.
* `Saying` is what has been said of a round when the run is in the midst of it.  `Converses` is the
  invariant of a run, `converses_stride` says that a stride keeps it, and `converses_of_reaches`
  that it holds at every point.
* `exists_dialogue_run` is about a whole run, `exists_point_of_mem_requests` leads from a request
  back to the point where it was made, and `conversation_grows_by_rounds` is the result.
-/

namespace AgentLoop

/-! ## Rounds -/

/-- What a reply of this turn and the run add to the conversation: the message of the assistant,
with the content and the calls of the reply, and one answer for each call in the order of issue, or
the prompt to confirm a text. -/
inductive Round (iteration : Nat) (reply : ModelReply) : List Message → Prop where
  | text {stamp stamp' : Stamp} (htext : reply.toolCalls = []) :
      Round iteration reply [.assistant stamp reply.content [], .user stamp' confirmationPrompt]
  | calls {stamp : Stamp} {answers : List Message} (hcalls : reply.toolCalls ≠ [])
      (hanswers :
        List.Forall₂ Message.Answers answers (normalizeCalls iteration reply.toolCalls)) :
      Round iteration reply
        (.assistant stamp reply.content (normalizeCalls iteration reply.toolCalls) :: answers)

theorem Round.ne_nil {iteration : Nat} {reply : ModelReply} {block : List Message}
    (h : Round iteration reply block) : block ≠ [] := by
  cases h <;> exact List.cons_ne_nil _ _

/-- A conversation that begins with the messages `seed` and goes on with a round for each reply;
before each of them the model was shown the conversation so far. -/
inductive Dialogue (seed : List Message) :
    List (List Message) → List ModelReply → List Message → Prop where
  | nothing : Dialogue seed [] [] seed
  | round {shown : List (List Message)} {replies : List ModelReply} {reply : ModelReply}
      {messages block : List Message} (hdialogue : Dialogue seed shown replies messages)
      (hround : Round (replies.length + 1) reply block) :
      Dialogue seed (shown ++ [messages]) (replies ++ [reply]) (messages ++ block)

namespace Dialogue

variable {seed messages : List Message} {shown : List (List Message)} {replies : List ModelReply}

theorem length_eq (h : Dialogue seed shown replies messages) : shown.length = replies.length := by
  induction h with
  | nothing => rfl
  | round hdialogue hround ih => rw [List.length_append, List.length_append, ih]; rfl

/-- Between what the model is shown twice in a row there is a round. -/
theorem exists_round (h : Dialogue seed shown replies messages) {i : Nat}
    {before after : List Message} (hbefore : (shown ++ [messages])[i]? = some before)
    (hafter : (shown ++ [messages])[i + 1]? = some after) :
    ∃ reply block, replies[i]? = some reply ∧ Round (i + 1) reply block ∧
      after = before ++ block := by
  induction h with
  | nothing => cases hafter
  | @round shown replies reply messages block hdialogue hround ih =>
    have hlength := hdialogue.length_eq
    have hbound := (List.getElem?_eq_some_iff.1 hafter).1
    simp only [List.length_append, List.length_singleton] at hbound
    rw [List.getElem?_append_left (by simp; omega)] at hbefore
    by_cases hlast : i = shown.length
    · subst hlast
      rw [List.getElem?_concat_length] at hbefore
      obtain rfl := Option.some.inj hbefore
      have hend : after = messages ++ block := by
        simpa [List.getElem?_append] using hafter.symm
      refine ⟨reply, block, ?_, ?_, hend⟩
      · rw [hlength, List.getElem?_concat_length]
      · rw [hlength]
        exact hround
    · rw [List.getElem?_append_left (by simp; omega)] at hafter
      obtain ⟨reply', block', hreply, hrest⟩ := ih hbefore hafter
      refine ⟨reply', block', ?_, hrest⟩
      rw [List.getElem?_append_left (by omega)]
      exact hreply

end Dialogue

/-- In a sequence in which each list goes on where the one before it ends, an earlier list begins a
later one. -/
theorem isPrefix_of_steps {α : Type} {views : List (List α)}
    (hstep : ∀ i before after, views[i]? = some before → views[i + 1]? = some after →
      ∃ block, block ≠ [] ∧ after = before ++ block)
    {i j : Nat} {first second : List α} (hij : i < j) (hfirst : views[i]? = some first)
    (hsecond : views[j]? = some second) : first.length < second.length ∧ first <+: second := by
  induction j generalizing second with
  | zero => omega
  | succ j ih =>
    have hbound := (List.getElem?_eq_some_iff.1 hsecond).1
    have hlast : views[j]? = some views[j] := List.getElem?_eq_getElem (by omega)
    obtain ⟨block, hblock, rfl⟩ := hstep j _ _ hlast hsecond
    have hpos := List.length_pos_of_ne_nil hblock
    rw [List.length_append]
    by_cases heq : i = j
    · subst heq
      obtain rfl := Option.some.inj (hfirst.symm.trans hlast)
      exact ⟨by omega, List.prefix_append _ _⟩
    · obtain ⟨hlength, hbegins⟩ := ih (by omega) hlast
      exact ⟨by omega, hbegins.trans (List.prefix_append _ _)⟩

/-- What stands at a place of a list stands there when the list goes on. -/
theorem getElem?_of_isPrefix {α : Type} {front whole : List α} {i : Nat} {a : α}
    (h : front <+: whole) (ha : front[i]? = some a) : whole[i]? = some a := by
  obtain ⟨hi, rfl⟩ := List.getElem?_eq_some_iff.1 ha
  exact List.prefix_iff_getElem?.1 h i hi

/-- The conversations that the model was shown, in order. -/
def Journal.shown (j : Journal) : List (List Message) := j.requests.map ModelRequest.messages

theorem Journal.shown_append (j k : Journal) : (j ++ k).shown = j.shown ++ k.shown := by
  rw [shown, shown, shown, requests_eq_pick, pick_append, List.map_append]
  rfl

theorem Journal.getElem?_shown {j : Journal} {i : Nat} {request : ModelRequest}
    (h : j.requests[i]? = some request) : j.shown[i]? = some request.messages := by
  rw [shown, List.getElem?_map, h, Option.map_some]

theorem Journal.exists_request_of_shown {j : Journal} {i : Nat} {messages : List Message}
    (h : j.shown[i]? = some messages) :
    ∃ request, j.requests[i]? = some request ∧ request.messages = messages := by
  rw [shown, List.getElem?_map] at h
  exact Option.map_eq_some_iff.1 h

/-! ## A round as it goes on -/

/-- What has been said of the round of a reply with calls: the message of the assistant, and the
answers to all calls but the open ones. -/
inductive Saying (iteration : Nat) (reply : ModelReply) (calls : List ToolCall) :
    List Message → Prop where
  | answering {stamp : Stamp} {given : List Message} {answered : List ToolCall}
      (hcalls : reply.toolCalls ≠ [])
      (hsplit : normalizeCalls iteration reply.toolCalls = answered ++ calls)
      (hgiven : List.Forall₂ Message.Answers given answered) :
      Saying iteration reply calls
        (.assistant stamp reply.content (normalizeCalls iteration reply.toolCalls) :: given)

namespace Saying

variable {iteration : Nat} {reply : ModelReply} {calls : List ToolCall} {said : List Message}

/-- The first open call is answered. -/
theorem answer {call : ToolCall} {m : Message} (h : Saying iteration reply (call :: calls) said)
    (hm : m.Answers call) : Saying iteration reply calls (said ++ [m]) := by
  obtain @⟨stamp, given, answered, hcalls, hsplit, hgiven⟩ := h
  have hnext : normalizeCalls iteration reply.toolCalls = (answered ++ [call]) ++ calls := by
    rw [hsplit, List.append_assoc]
    rfl
  exact .answering hcalls hnext (List.rel_append hgiven (.cons hm .nil))

/-- When no call is open, the round is complete. -/
theorem round (h : Saying iteration reply [] said) : Round iteration reply said := by
  obtain ⟨hcalls, hsplit, hgiven⟩ := h
  rw [List.append_nil] at hsplit
  exact .calls hcalls (hsplit ▸ hgiven)

end Saying

/-- A run in this phase has shown the model these conversations, had these replies, and stands at
these messages. -/
inductive Converses (seed : List Message) :
    Phase → List (List Message) → List ModelReply → List Message → Prop where
  | turn {shown : List (List Message)} {replies : List ModelReply} {messages : List Message}
      (hdialogue : Dialogue seed shown replies messages) :
      Converses seed .turn shown replies messages
  | replied {shown : List (List Message)} {replies : List ModelReply} {reply : ModelReply}
      {messages : List Message} (hdialogue : Dialogue seed shown replies messages) :
      Converses seed (.replied reply) (shown ++ [messages]) (replies ++ [reply]) messages
  | dispatching {shown : List (List Message)} {replies : List ModelReply} {reply : ModelReply}
      {messages said : List Message} {calls deferred : List ToolCall}
      (hdialogue : Dialogue seed shown replies messages)
      (hsaying : Saying (replies.length + 1) reply (calls ++ deferred) said) :
      Converses seed (.dispatching calls deferred) (shown ++ [messages]) (replies ++ [reply])
        (messages ++ said)
  | deferring {shown : List (List Message)} {replies : List ModelReply} {reply : ModelReply}
      {messages said : List Message} {calls : List ToolCall}
      (hdialogue : Dialogue seed shown replies messages)
      (hsaying : Saying (replies.length + 1) reply calls said) :
      Converses seed (.deferring calls) (shown ++ [messages]) (replies ++ [reply])
        (messages ++ said)
  | closing {shown : List (List Message)} {replies : List ModelReply} {messages : List Message}
      (hdialogue : Dialogue seed shown replies messages) :
      Converses seed .closing shown replies messages

/-- All that the model was shown belongs to a dialogue, in which the last round may be missing. -/
theorem Converses.exists_dialogue {seed messages : List Message} {shown : List (List Message)}
    {replies : List ModelReply} {phase : Phase}
    (h : Converses seed phase shown replies messages) :
    ∃ shown' replies' messages', Dialogue seed shown' replies' messages' ∧
      shown <+: shown' ++ [messages'] ∧ replies' <+: replies := by
  cases h with
  | turn hdialogue | closing hdialogue =>
    exact ⟨_, _, _, hdialogue, List.prefix_append _ _, List.prefix_refl _⟩
  | replied hdialogue | dispatching hdialogue | deferring hdialogue =>
    exact ⟨_, _, _, hdialogue, List.prefix_refl _, List.prefix_append _ _⟩

namespace Controller

variable {M G B X : Type} (c : Controller M G B X) (inv : Invocation) {s : Stand M G B X}

/-! ## Strides -/

/-- A turn shows the model the conversation so far, unless it ends before. -/
theorem shown_turn (s : Stand M G B X) :
    (c.stride inv .turn s).1.journal.shown <+: [s.state.transcript.messages] := by
  have hasks := c.asks_askModel inv s
  rw [stride]
  generalize c.askModel inv s = asked at hasks ⊢
  cases hasks with
  | blocked | withdrawn => exact List.nil_prefix
  | _ => exact List.prefix_refl _

/-- A turn that goes on has shown the model the conversation so far, and has left it as it is. -/
theorem shown_turn_of_goOn (hflow : (c.stride inv .turn s).1.flow = .goOn) :
    ∃ reply, (c.stride inv .turn s).2 = .replied reply ∧
      (c.stride inv .turn s).1.journal.shown = [s.state.transcript.messages] ∧
      (c.stride inv .turn s).1.stand.state.transcript.messages = s.state.transcript.messages := by
  have hasks := c.asks_askModel inv s
  rw [stride] at hflow ⊢
  generalize c.askModel inv s = asked at hasks hflow ⊢
  cases hasks with
  | replied => exact ⟨_, rfl, rfl, rfl⟩
  | _ => cases hflow

/-- The model is shown something only where a turn begins. -/
theorem shown_stride_eq_nil {phase : Phase} (hpending : s.state.transcript.pending = phase.open)
    (hphase : phase ≠ .turn) : (c.stride inv phase s).1.journal.shown = [] := by
  rw [Journal.shown, c.requests_stride_eq_nil inv hpending hphase]
  rfl

/-- A deferred call is answered. -/
theorem messages_strideDeferral {call : ToolCall} {calls : List ToolCall}
    (hpending : s.state.transcript.pending = call :: calls) :
    ∃ m, (c.strideDeferral inv call s).stand.state.transcript.messages =
        s.state.transcript.messages ++ [m] ∧ m.Answers call := by
  rw [strideDeferral, Transcript.pushToolResult_of_pending hpending]
  exact ⟨_, rfl, answers_toolResult _ _ _⟩

variable {seed messages : List Message} {shown : List (List Message)} {replies : List ModelReply}

/-- A reply is taken in: its round is complete, or its calls are open. -/
theorem converses_strideReply {reply : ModelReply}
    (hdialogue : Dialogue seed shown replies s.state.transcript.messages)
    (hcount : replies.length + 1 = s.state.iterations)
    (hflow : (c.strideReply inv reply s).1.flow = .goOn) :
    Converses seed (c.strideReply inv reply s).2 (shown ++ [s.state.transcript.messages])
      (replies ++ [reply]) (c.strideReply inv reply s).1.stand.state.transcript.messages := by
  have hcalls : callsOf reply s = normalizeCalls (replies.length + 1) reply.toolCalls := by
    rw [callsOf, hcount]
  have htakes := c.takes_strideReply inv reply s
  generalize c.strideReply inv reply s = taken at htakes hflow ⊢
  cases htakes with
  | refused | accepted => cases hflow
  | prompted htext hneeds =>
    have hnone : callsOf reply s = [] := callsOf_eq_nil_iff.2 htext
    have hround : Round (replies.length + 1) reply
        [c.replyMessage inv reply s, c.promptMessage inv reply s] := by
      rw [replyMessage, hnone]
      exact .text htext
    rw [messages_prompted]
    exact .closing (.round hdialogue hround)
  | calls hsome =>
    have hsaying : Saying (replies.length + 1) reply (callsOf reply s)
        [c.replyMessage inv reply s] := by
      rw [replyMessage, hcalls]
      exact .answering hsome (List.nil_append _).symm .nil
    refine .dispatching hdialogue ?_
    rw [List.take_append_drop]
    exact hsaying

/-- A stride with which the run goes on adds to the dialogue. -/
theorem converses_stride {phase : Phase} (h : s.state.transcript.Awaits phase.open)
    (hflow : (c.stride inv phase s).1.flow = .goOn) (hcount : replies.length = s.state.iterations)
    (hconverses : Converses seed phase shown replies s.state.transcript.messages) :
    Converses seed (c.stride inv phase s).2 (shown ++ (c.stride inv phase s).1.journal.shown)
      (replies ++ (c.stride inv phase s).1.journal.replies)
      (c.stride inv phase s).1.stand.state.transcript.messages := by
  have hpending := h.pending
  rw [c.replies_stride inv hpending]
  have hquiet : phase ≠ .turn → (c.stride inv phase s).1.journal.shown = [] :=
    c.shown_stride_eq_nil inv hpending
  generalize hmessages : s.state.transcript.messages = messages at hconverses
  cases hconverses with
  | turn hdialogue =>
    obtain ⟨reply, hnext, hshown, hsame⟩ := c.shown_turn_of_goOn inv hflow
    rw [hnext, hshown, hsame, hmessages]
    exact .replied hdialogue
  | @replied shown replies reply messages hdialogue =>
    subst hmessages
    rw [hquiet Phase.noConfusion, List.append_nil]
    simp only [stride, incoming_strideReply, List.append_nil] at hflow ⊢
    rw [List.length_append] at hcount
    exact c.converses_strideReply inv hdialogue hcount hflow
  | @dispatching shown replies reply messages said calls deferred hdialogue hsaying =>
    rw [hquiet Phase.noConfusion, List.append_nil]
    cases calls with
    | nil =>
      simp only [stride, Phase.incoming, List.append_nil]
      rw [strideToDeferred, hmessages]
      exact .deferring hdialogue hsaying
    | cons call calls =>
      obtain ⟨m, hnext, stamp, rfl⟩ := c.messages_dispatch_of_goOn inv hpending hflow
      have hanswered := hsaying.answer
        (answers_toolResult stamp call ((c.judge inv call s.world).1.content call.name))
      rw [hnext]
      simp only [stride, Phase.incoming, List.append_nil]
      rw [hmessages, List.append_assoc]
      exact .dispatching hdialogue hanswered
  | @deferring shown replies reply messages said calls hdialogue hsaying =>
    rw [hquiet Phase.noConfusion, List.append_nil]
    cases calls with
    | nil =>
      simp only [stride, Phase.incoming, List.append_nil]
      rw [hmessages]
      exact .closing (.round hdialogue hsaying.round)
    | cons call calls =>
      obtain ⟨m, hnext, hm⟩ := c.messages_strideDeferral inv hpending
      simp only [stride, Phase.incoming, List.append_nil]
      rw [hnext, hmessages, List.append_assoc]
      exact .deferring hdialogue (hsaying.answer hm)
  | closing hdialogue =>
    rw [hquiet Phase.noConfusion, List.append_nil]
    simp only [stride, Phase.incoming, List.append_nil] at hflow ⊢
    rw [(c.closeTurn_of_goOn hflow).1, hmessages]
    exact .turn hdialogue

/-! ## Runs -/

variable {c inv} {w : World M G B X} {phase : Phase} {past : Journal}

/-- At every point the conversation is made of rounds. -/
theorem converses_of_reaches {t : Transcript}
    (hadopt : Transcript.adopt (c.stamps inv w.now) inv.seed = .ok t)
    (h : c.Reaches inv w phase past s) :
    Converses t.messages phase past.shown past.replies s.state.transcript.messages := by
  induction h with
  | begin hadopt' =>
    cases hadopt.symm.trans hadopt'
    exact .turn .nothing
  | stride hpast hflow ih =>
    rw [Journal.shown_append, Journal.replies_append]
    exact c.converses_stride inv (awaits_of_reaches hpast) hflow
      (length_replies_of_reaches hpast) ih

/-- All that the model is shown in a run belongs to a dialogue, in which the last round may be
missing. -/
theorem exists_dialogue_of_ends {t : Transcript} {journal : Journal} {flow : Flow}
    (hadopt : Transcript.adopt (c.stamps inv w.now) inv.seed = .ok t)
    (h : c.Ends inv w journal s flow) :
    ∃ shown replies messages, Dialogue t.messages shown replies messages ∧
      journal.shown <+: shown ++ [messages] ∧ replies <+: journal.replies := by
  obtain @⟨phase, past, s, hpast, hstop⟩ := h
  have hconverses := converses_of_reaches hadopt hpast
  have hreplies : (past ++ (c.stride inv phase s).1.journal).replies = past.replies := by
    rw [replies_of_reaches_stride hpast, c.incoming_of_ne_goOn inv hstop, List.append_nil]
  rw [hreplies, Journal.shown_append]
  by_cases hturn : phase = .turn
  · subst hturn
    generalize hmessages : s.state.transcript.messages = messages at hconverses
    cases hconverses with
    | turn hdialogue =>
      have hshown := c.shown_turn inv s
      rw [hmessages] at hshown
      exact ⟨_, _, messages, hdialogue, (List.prefix_append_right_inj _).2 hshown,
        List.prefix_refl _⟩
  · rw [c.shown_stride_eq_nil inv (awaits_of_reaches hpast).pending hturn, List.append_nil]
    exact hconverses.exists_dialogue

variable (c inv)

theorem exists_dialogue_run (w : World M G B X) :
    ∃ seed shown replies messages, Dialogue seed shown replies messages ∧
      (c.run inv w).journal.shown <+: shown ++ [messages] ∧
      replies <+: (c.run inv w).journal.replies := by
  cases hadopt : Transcript.adopt (c.stamps inv w.now) inv.seed with
  | error error =>
    rw [c.run_of_adopt_eq_error inv w hadopt]
    exact ⟨[], [], [], [], .nothing, List.nil_prefix, List.nil_prefix⟩
  | ok t =>
    obtain ⟨journal, s, flow, hends, hrun⟩ := c.exists_ends inv w hadopt
    have hshown : (c.run inv w).journal.shown = journal.shown := by
      rw [hrun, Journal.shown, Journal.requests_eq_pick,
        pick_reportOf inv Journal.skipsReports_request?]
      rfl
    have hreplies : (c.run inv w).journal.replies = journal.replies := by
      rw [hrun, Journal.replies, pick_reportOf inv Journal.skipsReports_reply?]
      rfl
    rw [hshown, hreplies]
    exact ⟨t.messages, exists_dialogue_of_ends hadopt hends⟩

variable {c inv}

/-- A request was made where a turn began, of the conversation so far. -/
theorem exists_point_of_mem_requests {request : ModelRequest}
    (h : request ∈ (c.run inv w).journal.requests) :
    ∃ past s, c.Reaches inv w .turn past s ∧ request.messages = s.state.transcript.messages := by
  rw [Journal.requests_eq_pick] at h
  obtain ⟨phase, past, s, hpast, hmem⟩ := mem_pick_run Journal.skipsReports_request? h
  rw [← Journal.requests_eq_pick] at hmem
  by_cases hturn : phase = .turn
  · subst hturn
    have hshown : request.messages ∈ (c.stride inv .turn s).1.journal.shown :=
      List.mem_map_of_mem hmem
    exact ⟨past, s, hpast, List.mem_singleton.1 ((c.shown_turn inv s).subset hshown)⟩
  · rw [c.requests_stride_eq_nil inv (awaits_of_reaches hpast).pending hturn] at hmem
    cases hmem

/-- What the model was shown is found in the conversation that the run hands back. -/
theorem isPrefix_of_mem_requests {request : ModelRequest} {messages : List Message}
    (h : request ∈ (c.run inv w).journal.requests)
    (hback : (c.run inv w).ending.transcript? = some messages) : request.messages <+: messages := by
  obtain ⟨past, s, hpast, hsame⟩ := exists_point_of_mem_requests h
  rw [hsame]
  exact (c.messages_isPrefix_stride inv (awaits_of_reaches hpast)).trans
    (hpast.messages_isPrefix_run hback)

/-- What the model is shown is in good order, and no call is open in it. -/
theorem inGoodOrder_of_mem_requests {request : ModelRequest}
    (h : request ∈ (c.run inv w).journal.requests) : InGoodOrder request.messages := by
  obtain ⟨past, s, hpast, hsame⟩ := exists_point_of_mem_requests h
  have hawaits := awaits_of_reaches hpast
  rw [hsame]
  exact hawaits.sound.inGoodOrder hawaits.pending

/-- From one request to the next the conversation grows by a round. -/
theorem exists_round_of_requests {i : Nat} {first second : ModelRequest}
    (hfirst : (c.run inv w).journal.requests[i]? = some first)
    (hsecond : (c.run inv w).journal.requests[i + 1]? = some second) :
    ∃ reply block, (c.run inv w).journal.replies[i]? = some reply ∧ Round (i + 1) reply block ∧
      second.messages = first.messages ++ block := by
  obtain ⟨seed, shown, replies, messages, hdialogue, hshown, hreplies⟩ :=
    c.exists_dialogue_run inv w
  have hbefore := getElem?_of_isPrefix hshown (Journal.getElem?_shown hfirst)
  have hafter := getElem?_of_isPrefix hshown (Journal.getElem?_shown hsecond)
  obtain ⟨reply, block, hreply, hround, hgrown⟩ := hdialogue.exists_round hbefore hafter
  exact ⟨reply, block, getElem?_of_isPrefix hreplies hreply, hround, hgrown⟩

/-- From an earlier request to a later one the conversation grows. -/
theorem grows_of_requests {i j : Nat} {first second : ModelRequest} (hij : i < j)
    (hfirst : (c.run inv w).journal.requests[i]? = some first)
    (hsecond : (c.run inv w).journal.requests[j]? = some second) :
    first.messages.length < second.messages.length ∧ first.messages <+: second.messages := by
  refine isPrefix_of_steps ?_ hij (Journal.getElem?_shown hfirst) (Journal.getElem?_shown hsecond)
  intro k before after hbefore hafter
  obtain ⟨earlier, hearlier, rfl⟩ := Journal.exists_request_of_shown hbefore
  obtain ⟨later, hlater, rfl⟩ := Journal.exists_request_of_shown hafter
  obtain ⟨reply, block, -, hround, hgrown⟩ := exists_round_of_requests hearlier hlater
  exact ⟨block, hround.ne_nil, hgrown⟩

variable (c inv)

/-! ## Results -/

/-- The model always sees a conversation that is settled and only ever grows.  What it is shown
first begins all that it is shown later, and the conversation that the run hands back.  It is in
good order, no call is open in it, and a run can begin with it.  From one request to the next it
grows by the round of the reply in between, in which the calls keep their tools and arguments. -/
theorem conversation_grows_by_rounds (w : World M G B X) :
    (∀ (i j : Nat) first second, i < j → (c.run inv w).journal.requests[i]? = some first →
      (c.run inv w).journal.requests[j]? = some second →
      first.messages.length < second.messages.length ∧ first.messages <+: second.messages) ∧
    (∀ (i : Nat) request messages, (c.run inv w).journal.requests[i]? = some request →
      (c.run inv w).ending.transcript? = some messages →
      request.messages <+: messages ∧
        (i + 1 < (c.run inv w).journal.requests.length →
          request.messages.length < messages.length)) ∧
    (∀ request ∈ (c.run inv w).journal.requests,
      InGoodOrder request.messages ∧
        ∀ stamps, ∃ t, Transcript.adopt stamps request.messages = .ok t ∧ t.pending = []) ∧
    (∀ (i : Nat) first second, (c.run inv w).journal.requests[i]? = some first →
      (c.run inv w).journal.requests[i + 1]? = some second →
      ∃ reply block, (c.run inv w).journal.replies[i]? = some reply ∧ Round (i + 1) reply block ∧
        second.messages = first.messages ++ block) ∧
    ∀ iteration calls,
      (normalizeCalls iteration calls).map (fun call => (call.name, call.arguments)) =
        calls.map fun call => (call.name, call.arguments) := by
  refine ⟨fun i j first second hij hfirst hsecond => grows_of_requests hij hfirst hsecond,
    ?_, ?_, ?_, map_normalizeCalls⟩
  · intro i request messages hrequest hback
    refine ⟨isPrefix_of_mem_requests (List.mem_of_getElem? hrequest) hback, fun hlast => ?_⟩
    have hnext := List.getElem?_eq_getElem hlast
    have hlater := isPrefix_of_mem_requests (List.mem_of_getElem? hnext) hback
    have hshorter := (grows_of_requests (Nat.lt_succ_self i) hrequest hnext).1
    have hlength := hlater.length_le
    omega
  · intro request hrequest
    have horder := inGoodOrder_of_mem_requests hrequest
    refine ⟨horder, fun stamps => ?_⟩
    obtain ⟨t, hadopt⟩ := Transcript.exists_adopt_of_inGoodOrder stamps horder
    exact ⟨t, hadopt, (Transcript.sound_of_adopt hadopt).2⟩
  · intro i first second hfirst hsecond
    exact exists_round_of_requests hfirst hsecond

/-- A call, and a text twice. -/
def callThenText : World Script Unit Unit Unit :=
  reciting [callReply "a", .text "Done.", .text "Done."]

/-- The model is shown two messages and then four: in between there is the round of the call. -/
theorem conversation_grows_by_rounds_callThenText :
    ∃ first second reply block,
      ((scripted .default (.success "done")).run task callThenText).journal.requests[0]? =
        some first ∧
      ((scripted .default (.success "done")).run task callThenText).journal.requests[1]? =
        some second ∧
      (first.messages.length, second.messages.length) = (2, 4) ∧
      Round 1 reply block ∧ second.messages = first.messages ++ block := by
  have hlengths : (((scripted .default (.success "done")).run task
      callThenText).journal.requests.map fun request => request.messages.length) = [2, 4, 6] := by
    decide +kernel
  have hrequest : ∀ {i n : Nat}, ([2, 4, 6] : List Nat)[i]? = some n → ∃ request,
      ((scripted .default (.success "done")).run task callThenText).journal.requests[i]? =
        some request ∧ request.messages.length = n := by
    intro i n hn
    rw [← hlengths, List.getElem?_map] at hn
    exact Option.map_eq_some_iff.1 hn
  obtain ⟨first, hfirst, htwo⟩ := hrequest (show ([2, 4, 6] : List Nat)[0]? = some 2 from rfl)
  obtain ⟨second, hsecond, hfour⟩ := hrequest (show ([2, 4, 6] : List Nat)[1]? = some 4 from rfl)
  obtain ⟨-, -, -, hrounds, -⟩ :=
    (scripted .default (.success "done")).conversation_grows_by_rounds task callThenText
  obtain ⟨reply, block, -, hround, hgrown⟩ := hrounds 0 first second hfirst hsecond
  exact ⟨first, second, reply, block, hfirst, hsecond, by rw [htwo, hfour], hround, hgrown⟩

end Controller

end AgentLoop
