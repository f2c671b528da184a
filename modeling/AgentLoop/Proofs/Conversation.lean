import AgentLoop.Conversation.Transcript
import Mathlib.Data.List.Forall2

/-!
# Conversations in good order

A conversation in good order is a system message, a user message, and then blocks: a message of
the user, or a message of the assistant with the answers to its calls in the order of issue.  This
is said of the finished list of messages.  A transcript builds the list message by message and
remembers the open calls, so its messages may end within a block.

There are three groups.

* Blocks.  `IsBlock` is one block, `InGoodOrder` a whole conversation.
* Repeated ids.  `firstRepeated?_eq_none_iff` says that the search for a repeated id fails exactly
  on lists without one.
* Sound transcripts.  `Transcript.Sound` is the invariant: the messages are in good order, or they
  lack exactly the answers to the open calls.  Every operation keeps it, and so does
  `Transcript.adopt`, which leaves no call open (`sound_of_adopt`).
-/

namespace AgentLoop

/-! ## Blocks -/

/-- The message is an answer to the call. -/
def Message.Answers (m : Message) (call : ToolCall) : Prop :=
  m.role = .tool ∧ m.toolCallId = some call.id ∧ m.toolName = some call.name

/-- The message is an answer to the call, with this content. -/
def Message.AnswersWith (content : String) (m : Message) (call : ToolCall) : Prop :=
  ∃ stamp, m = .toolResult stamp call content

/-- A message of the user, or a message of the assistant with the answers to its calls. -/
inductive IsBlock : List Message → Prop where
  | user {m : Message} (hrole : m.role = .user) : IsBlock [m]
  | exchange {m : Message} {answers : List Message} (hrole : m.role = .assistant)
      (hids : (m.toolCalls.map ToolCall.id).Nodup)
      (hanswers : List.Forall₂ Message.Answers answers m.toolCalls) : IsBlock (m :: answers)

/-- A system message, a user message and blocks. -/
def InGoodOrder (messages : List Message) : Prop :=
  ∃ system user blocks, messages = system :: user :: List.flatten blocks ∧
    system.role = .system ∧ user.role = .user ∧ ∀ block ∈ blocks, IsBlock block

/-- A conversation in good order can go on with any block. -/
theorem InGoodOrder.append {messages block : List Message} (h : InGoodOrder messages)
    (hblock : IsBlock block) : InGoodOrder (messages ++ block) := by
  obtain ⟨system, user, blocks, rfl, hsystem, huser, hblocks⟩ := h
  refine ⟨system, user, blocks ++ [block], by simp, hsystem, huser, ?_⟩
  intro b hb
  rcases List.mem_append.1 hb with hb | hb
  · exact hblocks b hb
  · rw [List.mem_singleton.1 hb]
    exact hblock

theorem inGoodOrder_pair {system user : Message} (hsystem : system.role = .system)
    (huser : user.role = .user) : InGoodOrder [system, user] :=
  ⟨system, user, [], rfl, hsystem, huser, by simp⟩

theorem answers_toolResult (stamp : Stamp) (call : ToolCall) (content : String) :
    (Message.toolResult stamp call content).Answers call :=
  ⟨rfl, rfl, rfl⟩

/-! ## Repeated ids -/

/-- No repeated id is found exactly when the ids differ from each other and from those seen
before. -/
theorem firstRepeated?_eq_none_iff {seen ids : List String} :
    firstRepeated? seen ids = none ↔ ids.Nodup ∧ ∀ id ∈ ids, id ∉ seen := by
  induction ids generalizing seen with
  | nil => simp [firstRepeated?]
  | cons id ids ih =>
    rw [firstRepeated?]
    split
    · next hseen => simp [hseen]
    · next hseen =>
      rw [ih, List.nodup_cons]
      constructor
      · rintro ⟨hnodup, hfresh⟩
        have hid : id ∉ ids := fun hmem => hfresh id hmem List.mem_cons_self
        refine ⟨⟨hid, hnodup⟩, ?_⟩
        intro other hother
        rcases List.mem_cons.1 hother with rfl | hother
        · exact hseen
        · exact fun hmem => hfresh other hother (List.mem_cons_of_mem _ hmem)
      · rintro ⟨⟨hid, hnodup⟩, hfresh⟩
        refine ⟨hnodup, fun other hother hmem => ?_⟩
        rcases List.mem_cons.1 hmem with rfl | hmem
        · exact hid hother
        · exact hfresh other (List.mem_cons_of_mem _ hother) hmem

namespace Transcript

/-! ## What the operations do -/

variable {stamps : Stamps} {t t' : Transcript} {m : Message} {call : ToolCall}
  {calls : List ToolCall} {id content : String}

/-- A message of the assistant is appended when no call is open and its calls differ in their
ids. -/
theorem pushAssistant_eq_ok_iff :
    t.pushAssistant m = .ok t' ↔
      m.role = .assistant ∧ t.pending = [] ∧ (m.toolCalls.map ToolCall.id).Nodup ∧
        t' = ⟨t.messages ++ [m], m.toolCalls⟩ := by
  rw [pushAssistant]
  split
  · next hrole => simp [hrole]
  · next hrole =>
    have hrole : m.role = .assistant := by simpa using hrole
    split
    · next hpending => simp [hpending]
    · next hpending =>
      split
      · next hrepeated =>
        have hids : ¬ (m.toolCalls.map ToolCall.id).Nodup := by
          intro hids
          rw [firstRepeated?_eq_none_iff.2 ⟨hids, by simp⟩] at hrepeated
          cases hrepeated
        simp [hids]
      · next hrepeated =>
        have hids := (firstRepeated?_eq_none_iff.1 hrepeated).1
        simp [hrole, hpending, hids, eq_comm]

theorem pushUser_eq_ok_iff :
    t.pushUser stamps content = .ok t' ↔
      t.pending = [] ∧ t' = ⟨t.messages ++ [.user (stamps t.length) content], []⟩ := by
  rw [pushUser]
  split <;> next hpending => simp [hpending, eq_comm]

theorem pushToolResult_eq_ok_iff :
    t.pushToolResult stamps id content = .ok t' ↔
      ∃ call calls, t.pending = call :: calls ∧ call.id = id ∧
        t' = ⟨t.messages ++ [.toolResult (stamps t.length) call content], calls⟩ := by
  rw [pushToolResult]
  split
  · next hpending => simp [hpending]
  · next call calls hpending =>
    split
    · next hid => simp [hpending, hid, eq_comm]
    · next hid =>
      split <;> simp [hpending, hid]

/-- The first open call can be answered. -/
theorem pushToolResult_of_pending (h : t.pending = call :: calls) :
    t.pushToolResult stamps call.id content =
      .ok ⟨t.messages ++ [.toolResult (stamps t.length) call content], calls⟩ :=
  pushToolResult_eq_ok_iff.2 ⟨call, calls, h, rfl, rfl⟩

/-- The answers of `closePending` are answers to the open calls, all with the same content. -/
theorem forall₂_answersWith (n : Nat) :
    List.Forall₂ (Message.AnswersWith content) (answers stamps content n calls) calls := by
  induction calls generalizing n with
  | nil => exact .nil
  | cons call calls ih => exact .cons ⟨stamps n, rfl⟩ (ih (n + 1))

theorem forall₂_answers (n : Nat) :
    List.Forall₂ Message.Answers (answers stamps content n calls) calls := by
  refine (forall₂_answersWith n).imp ?_
  rintro m call ⟨stamp, rfl⟩
  exact answers_toolResult stamp call content

/-! ## Sound transcripts -/

/-- The messages are in good order, or they lack exactly the answers to the open calls. -/
inductive Sound : Transcript → Prop where
  | settled {messages : List Message} (horder : InGoodOrder messages) : Sound ⟨messages, []⟩
  | awaiting {messages given : List Message} {m : Message} {answered calls : List ToolCall}
      (horder : InGoodOrder messages) (hrole : m.role = .assistant)
      (hids : (m.toolCalls.map ToolCall.id).Nodup) (hcalls : m.toolCalls = answered ++ calls)
      (hgiven : List.Forall₂ Message.Answers given answered) :
      Sound ⟨messages ++ m :: given, calls⟩

/-- A sound transcript without open calls is in good order. -/
theorem Sound.inGoodOrder (h : t.Sound) (hpending : t.pending = []) : InGoodOrder t.messages := by
  cases h with
  | settled horder => exact horder
  | awaiting horder hrole hids hcalls hgiven =>
    simp only at hpending
    subst hpending
    rw [List.append_nil] at hcalls
    exact horder.append (.exchange hrole hids (hcalls ▸ hgiven))

theorem Sound.pushAssistant (h : t.Sound) (hpush : t.pushAssistant m = .ok t') : t'.Sound := by
  obtain ⟨hrole, hpending, hids, rfl⟩ := pushAssistant_eq_ok_iff.1 hpush
  exact .awaiting (h.inGoodOrder hpending) hrole hids (List.nil_append _).symm .nil

theorem Sound.pushUser (h : t.Sound) (hpush : t.pushUser stamps content = .ok t') :
    t'.Sound := by
  obtain ⟨hpending, rfl⟩ := pushUser_eq_ok_iff.1 hpush
  exact .settled ((h.inGoodOrder hpending).append (.user rfl))

theorem Sound.pushToolResult (h : t.Sound)
    (hpush : t.pushToolResult stamps id content = .ok t') : t'.Sound := by
  obtain ⟨call, calls, hpending, -, rfl⟩ := pushToolResult_eq_ok_iff.1 hpush
  cases h with
  | settled => cases hpending
  | @awaiting messages given m answered calls' horder hrole hids hcalls hgiven =>
    simp only at hpending
    subst hpending
    have hgiven' : List.Forall₂ Message.Answers
        (given ++ [.toolResult (stamps (messages ++ m :: given).length) call content])
        (answered ++ [call]) :=
      List.rel_append hgiven (.cons (answers_toolResult _ _ _) .nil)
    have hcalls' : m.toolCalls = (answered ++ [call]) ++ calls := by simp [hcalls]
    simpa [Transcript.length] using Sound.awaiting horder hrole hids hcalls' hgiven'

theorem Sound.closePending (h : t.Sound) : (t.closePending stamps content).Sound := by
  cases h with
  | settled horder => simpa [Transcript.closePending, answers] using Sound.settled horder
  | @awaiting messages given m answered calls horder hrole hids hcalls hgiven =>
    have hall : List.Forall₂ Message.Answers
        (given ++ answers stamps content (messages ++ m :: given).length calls) m.toolCalls := by
      rw [hcalls]
      exact List.rel_append hgiven (forall₂_answers _)
    simpa [Transcript.closePending, Transcript.length] using
      Sound.settled (horder.append (.exchange hrole hids hall))

theorem Sound.take (h : t.Sound) (htake : t.take stamps m = .ok t') : t'.Sound := by
  rw [Transcript.take] at htake
  split at htake
  · cases htake
  · exact h.pushUser htake
  · exact h.pushAssistant htake
  · split at htake
    · cases htake
    · exact h.pushToolResult htake

/-- A message is taken over, or with it all messages are refused. -/
theorem takeAll_cons_eq_ok_iff {messages : List Message} :
    t.takeAll stamps (m :: messages) = .ok t' ↔
      ∃ next, t.take stamps m = .ok next ∧ next.takeAll stamps messages = .ok t' := by
  rw [takeAll]
  cases t.take stamps m with
  | error e => simp
  | ok next => simp

theorem Sound.takeAll {messages : List Message} (h : t.Sound)
    (htake : t.takeAll stamps messages = .ok t') : t'.Sound := by
  induction messages generalizing t with
  | nil =>
    cases htake
    exact h
  | cons m messages ih =>
    obtain ⟨next, hm, hrest⟩ := takeAll_cons_eq_ok_iff.1 htake
    exact ih (h.take hm) hrest

/-- The reader has got through these messages and stands at this transcript. -/
def TakenOver (stamps : Stamps) (messages : List Message) (t : Transcript) : Prop :=
  ∃ system user rest, messages = system :: user :: rest ∧ system.role = .system ∧
    user.role = .user ∧ takeAll stamps ⟨[system, user], []⟩ rest = .ok t

/-- A list is taken over if the reader gets through it and no call is open then. -/
theorem adopt_eq_ok_iff {messages : List Message} :
    adopt stamps messages = .ok t ↔ TakenOver stamps messages t ∧ t.pending = [] := by
  constructor
  · intro h
    unfold adopt at h
    split at h
    · cases h
    · next system rest =>
      split at h
      · cases h
      · next hsystem =>
        split at h
        · cases h
        · next user rest =>
          split at h
          · cases h
          · next huser =>
            split at h
            · cases h
            · next taken htaken =>
              split at h
              · next hpending =>
                cases h
                exact ⟨⟨system, user, rest, rfl, not_not.1 hsystem, not_not.1 huser, htaken⟩,
                  hpending⟩
              · cases h
  · rintro ⟨⟨system, user, rest, rfl, hsystem, huser, hrest⟩, hpending⟩
    simp [adopt, hsystem, huser, hrest, hpending]

/-- What was taken over is sound and settled. -/
theorem sound_of_adopt {messages : List Message} (h : adopt stamps messages = .ok t) :
    t.Sound ∧ t.pending = [] := by
  obtain ⟨⟨system, user, rest, -, hsystem, huser, hrest⟩, hpending⟩ := adopt_eq_ok_iff.1 h
  exact ⟨(Sound.settled (inGoodOrder_pair hsystem huser)).takeAll hrest, hpending⟩

end Transcript

end AgentLoop
