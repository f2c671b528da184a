import AgentLoop.Proofs.Conversation
import Mathlib.Data.List.Induction

/-!
# Editing a transcript in place

A transcript that is edited in place has its queue of open calls and its list of messages changed
one after the other, and an edit that failed half-way would leave what it had changed so far.  No
edit does: whatever can fail is looked at before anything is changed.

There are four groups.

* `Editing` is a program that changes a transcript in place, and `Editing.pushAssistant`,
  `pushToolResult`, `pushUser` and `closePending` are the four edits, change by change.
* `run_pushAssistant` and its like say that an edit in place comes to the same as the operation on
  transcripts, and that a failure leaves the transcript as it was.
* `Edit` is any of the four.  `Edit.Fits` says when an edit succeeds, `Edit.Behaves` what every edit
  keeps to.
* `Transcript.Coherent` says that queue and messages agree: the queue is what the last message of
  the assistant asked for and nobody has answered yet.  `Transcript.Arises` is a transcript with a
  history of edits, successful or not, and `coherent_of_arises` is the result on all of them.
-/

namespace AgentLoop

/-- A program that changes a transcript in place and may fail.  What it changed before it failed
stays changed. -/
abbrev Editing := ExceptT TranscriptError (StateM Transcript)

namespace Editing

/-! ## The edits, change by change -/

/-- Appends a message. -/
def append (m : Message) : Editing Unit :=
  modify fun t => { t with messages := t.messages ++ [m] }

/-- Replaces the queue of open calls. -/
def setPending (calls : List ToolCall) : Editing Unit :=
  modify fun t => { t with pending := calls }

/-- Takes the first open call off the queue, if there is one. -/
def popPending : Editing (Option ToolCall) := do
  match (← get).pending with
  | [] => return none
  | call :: calls =>
    setPending calls
    return some call

/-- Appends the answer to a call that was taken off the queue. -/
def answer (stamps : Stamps) (call : ToolCall) (content : String) : Editing Unit := do
  append (.toolResult (stamps (← get).length) call content)

/-- Fails while a call is open. -/
def ensureSettled : Editing Unit := do
  match (← get).pending with
  | [] => return
  | call :: _ => throw (.unansweredCall call.id)

/-- Appends a reply of the model, and queues its calls. -/
def pushAssistant (m : Message) : Editing Unit := do
  if m.role ≠ .assistant then throw (.unexpectedRole .assistant m.role)
  ensureSettled
  match firstRepeated? [] (m.toolCalls.map ToolCall.id) with
  | some id => throw (.duplicateCallId id)
  | none =>
    setPending m.toolCalls
    append m

/-- Answers the call that is next in turn. -/
def pushToolResult (stamps : Stamps) (id content : String) : Editing Unit := do
  let pending := (← get).pending
  match pending with
  | [] => throw (.unknownCallId id)
  | next :: _ =>
    if next.id ≠ id then
      throw (if id ∈ pending.map ToolCall.id then .outOfOrder next.id id else .unknownCallId id)
    match ← popPending with
    | none => return
    | some call => answer stamps call content

/-- Appends a user message. -/
def pushUser (stamps : Stamps) (content : String) : Editing Unit := do
  ensureSettled
  append (.user (stamps (← get).length) content)

/-- Answers open calls one after the other, but at most so many, and counts them. -/
def closeEach (stamps : Stamps) (content : String) : Nat → Editing Nat
  | 0 => return 0
  | limit + 1 => do
    match ← popPending with
    | none => return 0
    | some call =>
      answer stamps call content
      return (← closeEach stamps content limit) + 1

/-- Answers every open call, and counts them. -/
def closePending (stamps : Stamps) (content : String) : Editing Nat := do
  closeEach stamps content (← get).pending.length

/-! ## What the edits come to -/

variable {α β : Type} {stamps : Stamps} {t t' : Transcript} {content id : String}

theorem run_bind_ok {x : Editing α} {f : α → Editing β} {a : α}
    (h : x.run.run t = (.ok a, t')) : (x >>= f).run.run t = (f a).run.run t' := by
  have hbind : (x >>= f).run.run t = (x.run >>= ExceptT.bindCont f).run t := rfl
  rw [hbind, StateT.run_bind, h]
  rfl

theorem run_bind_error {x : Editing α} {f : α → Editing β} {error : TranscriptError}
    (h : x.run.run t = (.error error, t')) : (x >>= f).run.run t = (.error error, t') := by
  have hbind : (x >>= f).run.run t = (x.run >>= ExceptT.bindCont f).run t := rfl
  rw [hbind, StateT.run_bind, h]
  rfl

theorem run_ensureSettled_of_settled (h : t.pending = []) :
    ensureSettled.run.run t = (.ok (), t) := by
  obtain ⟨messages, pending⟩ := t
  subst h
  rfl

theorem run_ensureSettled_of_open {call : ToolCall} {calls : List ToolCall}
    (h : t.pending = call :: calls) :
    ensureSettled.run.run t = (.error (.unansweredCall call.id), t) := by
  obtain ⟨messages, pending⟩ := t
  subst h
  rfl

/-- What an operation on transcripts comes to in place: a failure leaves the transcript as it
was. -/
def inPlace (t : Transcript) :
    Except TranscriptError Transcript → Except TranscriptError Unit × Transcript
  | .ok t' => (.ok (), t')
  | .error error => (.error error, t)

theorem run_pushUser :
    (pushUser stamps content).run.run t = inPlace t (t.pushUser stamps content) := by
  rw [pushUser, Transcript.pushUser]
  cases hpending : t.pending with
  | nil =>
    rw [run_bind_ok (run_ensureSettled_of_settled hpending), inPlace, ← hpending]
    rfl
  | cons call calls => exact run_bind_error (run_ensureSettled_of_open hpending)

theorem run_pushAssistant (m : Message) :
    (pushAssistant m).run.run t = inPlace t (t.pushAssistant m) := by
  rw [pushAssistant, Transcript.pushAssistant]
  by_cases hrole : m.role = .assistant
  · rw [if_neg (not_not.2 hrole), if_neg (not_not.2 hrole)]
    cases hpending : t.pending with
    | nil =>
      rw [run_bind_ok (run_ensureSettled_of_settled hpending)]
      cases firstRepeated? [] (m.toolCalls.map ToolCall.id) with
      | none => rfl
      | some id => rfl
    | cons call calls => exact run_bind_error (run_ensureSettled_of_open hpending)
  · rw [if_pos hrole, if_pos hrole]
    rfl

theorem run_get : (get : Editing Transcript).run.run t = (.ok t, t) := rfl

theorem run_pushToolResult :
    (pushToolResult stamps id content).run.run t =
      inPlace t (t.pushToolResult stamps id content) := by
  obtain ⟨messages, pending⟩ := t
  rw [pushToolResult, run_bind_ok run_get, Transcript.pushToolResult]
  cases pending with
  | nil => rfl
  | cons call calls =>
    by_cases hid : call.id = id
    · simp only [hid, ne_eq, not_true_eq_false, if_false, if_true]
      rfl
    · have hmem : id ∈ (call :: calls).map ToolCall.id ↔ id ∈ calls.map ToolCall.id := by
        rw [List.map_cons, List.mem_cons, or_iff_right (Ne.symm hid)]
      simp only [hid, hmem, ne_eq, not_false_eq_true, if_true, if_false]
      split <;> rfl

/-- Calls are closed one after the other, as if all of them were answered at once. -/
theorem run_closeEach {limit : Nat} (h : t.pending.length ≤ limit) :
    (closeEach stamps content limit).run.run t =
      (.ok t.pending.length, t.closePending stamps content) := by
  -- On the limit, which the queue stays within: one call is answered, and the rest is closed after.
  induction limit generalizing t with
  | zero =>
    obtain ⟨messages, pending⟩ := t
    obtain rfl : pending = [] := List.length_eq_zero_iff.1 (Nat.le_zero.1 h)
    rw [Transcript.closePending, Transcript.answers, List.append_nil]
    rfl
  | succ limit ih =>
    obtain ⟨messages, pending⟩ := t
    cases pending with
    | nil =>
      rw [Transcript.closePending, Transcript.answers, List.append_nil]
      rfl
    | cons call calls =>
      let answered : Transcript :=
        ⟨messages ++ [.toolResult (stamps messages.length) call content], calls⟩
      have hrest : (closeEach stamps content limit).run.run answered =
          (.ok calls.length, answered.closePending stamps content) :=
        ih (Nat.le_of_succ_le_succ h)
      have hpop : popPending.run.run ⟨messages, call :: calls⟩ =
          (.ok (some call), ⟨messages, calls⟩) := rfl
      have hanswer : (answer stamps call content).run.run ⟨messages, calls⟩ =
          (.ok (), answered) := rfl
      rw [closeEach, run_bind_ok hpop]
      simp only
      rw [run_bind_ok hanswer, run_bind_ok hrest]
      simp [answered, Transcript.closePending, Transcript.answers, Transcript.length]
      rfl

theorem run_closePending :
    (closePending stamps content).run.run t =
      (.ok t.pending.length, t.closePending stamps content) :=
  run_closeEach (Nat.le_refl _)

end Editing

/-! ## Any edit -/

/-- An edit of a transcript. -/
inductive Edit where
  | pushAssistant (m : Message)
  | pushToolResult (id content : String)
  | pushUser (content : String)
  | closePending (content : String)
  deriving DecidableEq, Repr

namespace Edit

/-- The program that carries out an edit. -/
def perform (stamps : Stamps) : Edit → Editing Unit
  | pushAssistant m => Editing.pushAssistant m
  | pushToolResult id content => Editing.pushToolResult stamps id content
  | pushUser content => Editing.pushUser stamps content
  | closePending content => discard (Editing.closePending stamps content)

/-- The outcome of an edit, and the transcript after it. -/
def on (stamps : Stamps) (edit : Edit) (t : Transcript) :
    Except TranscriptError Unit × Transcript :=
  (edit.perform stamps).run.run t

/-- The operation on transcripts that an edit stands for. -/
def operation (stamps : Stamps) (t : Transcript) : Edit → Except TranscriptError Transcript
  | pushAssistant m => t.pushAssistant m
  | pushToolResult id content => t.pushToolResult stamps id content
  | pushUser content => t.pushUser stamps content
  | closePending content => .ok (t.closePending stamps content)

/-- When an edit succeeds: a reply needs the role of the assistant, no open call and calls that
differ in their ids, a user message needs no open call, and a result must be for the first open
call. -/
def Fits (t : Transcript) : Edit → Prop
  | pushAssistant m =>
    m.role = .assistant ∧ t.pending = [] ∧ (m.toolCalls.map ToolCall.id).Nodup
  | pushToolResult id _ => t.pending.head?.map ToolCall.id = some id
  | pushUser _ => t.pending = []
  | closePending _ => True

/-- What every edit keeps to: it comes to the same as the operation, messages are only appended, it
succeeds exactly when it fits, and it leaves the transcript as it was when it fails. -/
structure Behaves (stamps : Stamps) (t : Transcript) (edit : Edit) : Prop where
  agrees : edit.on stamps t = Editing.inPlace t (edit.operation stamps t)
  appends : t.messages <+: (edit.on stamps t).2.messages
  succeeds_iff : (edit.on stamps t).1 = .ok () ↔ edit.Fits t
  atomic : ∀ error, (edit.on stamps t).1 = .error error → (edit.on stamps t).2 = t

variable {stamps : Stamps} {t t' : Transcript} {edit : Edit}

/-- An edit in place comes to the same as the operation. -/
theorem on_eq : edit.on stamps t = Editing.inPlace t (edit.operation stamps t) := by
  cases edit with
  | pushAssistant m => exact Editing.run_pushAssistant m
  | pushToolResult id content => exact Editing.run_pushToolResult
  | pushUser content => exact Editing.run_pushUser
  | closePending content => exact Editing.run_bind_ok Editing.run_closePending

theorem exists_operation_eq_ok_iff (stamps : Stamps) :
    (∃ t', edit.operation stamps t = .ok t') ↔ edit.Fits t := by
  cases edit with
  | pushAssistant m => simp [operation, Fits, Transcript.pushAssistant_eq_ok_iff]
  | pushToolResult id content =>
    simp only [operation, Fits, Transcript.pushToolResult_eq_ok_iff]
    cases t.pending with
    | nil => simp
    | cons call calls => simp
  | pushUser content => simp [operation, Fits, Transcript.pushUser_eq_ok_iff]
  | closePending content => simp [operation, Fits]

theorem messages_isPrefix_of_operation (h : edit.operation stamps t = .ok t') :
    t.messages <+: t'.messages := by
  cases edit with
  | pushAssistant m =>
    obtain ⟨-, -, -, rfl⟩ := Transcript.pushAssistant_eq_ok_iff.1 h
    exact List.prefix_append _ _
  | pushToolResult id content =>
    obtain ⟨call, calls, -, -, rfl⟩ := Transcript.pushToolResult_eq_ok_iff.1 h
    exact List.prefix_append _ _
  | pushUser content =>
    obtain ⟨-, rfl⟩ := Transcript.pushUser_eq_ok_iff.1 h
    exact List.prefix_append _ _
  | closePending content =>
    cases h
    exact List.prefix_append _ _

theorem behaves (stamps : Stamps) (t : Transcript) (edit : Edit) : edit.Behaves stamps t := by
  cases hoperation : edit.operation stamps t with
  | ok t' =>
    have hon : edit.on stamps t = (.ok (), t') := by rw [on_eq, hoperation, Editing.inPlace]
    refine ⟨on_eq, ?_, ?_, ?_⟩
    · rw [hon]
      exact messages_isPrefix_of_operation hoperation
    · rw [hon, ← exists_operation_eq_ok_iff stamps, hoperation]
      simp
    · rw [hon]
      intro error herror
      cases herror
  | error error =>
    have hon : edit.on stamps t = (.error error, t) := by
      rw [on_eq, hoperation, Editing.inPlace]
    refine ⟨on_eq, ?_, ?_, ?_⟩
    · simp only [hon, List.prefix_refl]
    · rw [hon, ← exists_operation_eq_ok_iff stamps, hoperation]
      simp
    · rw [hon]
      exact fun _ _ => rfl

/-- Every edit keeps a transcript sound, whether it succeeds or fails. -/
theorem sound_on (h : t.Sound) : (edit.on stamps t).2.Sound := by
  cases hoperation : edit.operation stamps t with
  | error error =>
    rw [on_eq, hoperation]
    exact h
  | ok t' =>
    rw [on_eq, hoperation]
    cases edit with
    | pushAssistant m => exact h.pushAssistant hoperation
    | pushToolResult id content => exact h.pushToolResult hoperation
    | pushUser content => exact h.pushUser hoperation
    | closePending content =>
      cases hoperation
      exact h.closePending

end Edit

namespace Transcript

/-! ## The queue and the messages -/

/-- The calls of the last message of the assistant. -/
def latestCalls (t : Transcript) : List ToolCall :=
  (t.lastAssistant?.map Message.toolCalls).getD []

/-- The messages of tools after the last message of the assistant. -/
def latestResults (t : Transcript) : List Message :=
  (t.messages.reverse.takeWhile fun m => !(m.role == .assistant)).reverse.filter
    fun m => m.role == .tool

/-- The queue and the messages agree: with an answer to each call of the queue, in order, the
messages are in good order, and the queue is what the last message of the assistant asked for but
for the calls that were answered since. -/
structure Coherent (t : Transcript) : Prop where
  inGoodOrder : ∀ given, List.Forall₂ Message.Answers given t.pending →
    InGoodOrder (t.messages ++ given)
  pending : ∃ answered, t.latestCalls = answered ++ t.pending ∧
    List.Forall₂ Message.Answers t.latestResults answered

variable {stamps : Stamps} {t : Transcript} {messages given : List Message} {m : Message}
  {calls answered : List ToolCall}

theorem role_of_answers (h : List.Forall₂ Message.Answers given calls) :
    ∀ r ∈ given, r.role = .tool := by
  induction h with
  | nil => simp
  | cons hanswer _ ih =>
    intro r hr
    rcases List.mem_cons.1 hr with rfl | hr
    · exact hanswer.1
    · exact ih r hr

/-- The last message of the assistant is found before the answers to its first calls. -/
theorem latest_of_answers (messages : List Message) (hrole : m.role = .assistant)
    (hgiven : List.Forall₂ Message.Answers given answered) (calls : List ToolCall) :
    latestCalls ⟨messages ++ m :: given, calls⟩ = m.toolCalls ∧
      latestResults ⟨messages ++ m :: given, calls⟩ = given := by
  have htool := role_of_answers hgiven
  have hreverse : (messages ++ m :: given).reverse = given.reverse ++ m :: messages.reverse := by
    simp
  have hothers : ∀ r ∈ given.reverse, (!(r.role == .assistant)) = true := by
    intro r hr
    rw [htool r (List.mem_reverse.1 hr)]
    rfl
  have hnone : ∀ r ∈ given.reverse, ¬ (r.role == .assistant) = true := by
    simpa using hothers
  constructor
  · rw [latestCalls, lastAssistant?, hreverse, List.find?_append, List.find?_eq_none.2 hnone]
    simp [hrole]
  · rw [latestResults, hreverse, List.takeWhile_append_of_pos hothers, List.takeWhile_cons_of_neg,
      List.append_nil, List.reverse_reverse, List.filter_eq_self.2]
    · intro r hr
      rw [htool r hr]
      rfl
    · simp [hrole]

/-- A message of the user is no answer. -/
theorem latest_concat_user (messages : List Message) (hrole : m.role = .user)
    (calls : List ToolCall) :
    latestCalls ⟨messages ++ [m], calls⟩ = latestCalls ⟨messages, calls⟩ ∧
      latestResults ⟨messages ++ [m], calls⟩ = latestResults ⟨messages, calls⟩ := by
  constructor
  · simp [latestCalls, lastAssistant?, hrole]
  · simp [latestResults, hrole]

/-- In a conversation in good order the last calls are all answered. -/
theorem answers_latest_of_inGoodOrder (h : InGoodOrder messages) :
    List.Forall₂ Message.Answers (latestResults ⟨messages, []⟩) (latestCalls ⟨messages, []⟩) := by
  obtain ⟨system, user, blocks, rfl, hsystem, huser, hblocks⟩ := h
  -- From the end: a user message leaves the last calls as they are, an exchange replaces them.
  induction blocks using List.reverseRecOn with
  | nil =>
    have hcalls : latestCalls ⟨[system, user], []⟩ = [] := by
      simp [latestCalls, lastAssistant?, hsystem, huser]
    have hresults : latestResults ⟨[system, user], []⟩ = [] := by
      simp [latestResults, hsystem, huser]
    rw [List.flatten_nil, hcalls, hresults]
    exact .nil
  | append_singleton blocks block ih =>
    have hbefore := ih fun b hb => hblocks b (List.mem_append_left _ hb)
    have hsplit : system :: user :: (blocks ++ [block]).flatten =
        (system :: user :: blocks.flatten) ++ block := by simp
    rw [hsplit]
    cases hblocks block (by simp) with
    | user hrole =>
      obtain ⟨hcalls, hresults⟩ :=
        latest_concat_user (system :: user :: blocks.flatten) hrole []
      rw [hcalls, hresults]
      exact hbefore
    | exchange hrole hids hanswers =>
      obtain ⟨hcalls, hresults⟩ :=
        latest_of_answers (system :: user :: blocks.flatten) hrole hanswers []
      rw [hcalls, hresults]
      exact hanswers

/-- The queue and the messages of a sound transcript agree. -/
theorem Sound.coherent (h : t.Sound) : t.Coherent := by
  cases h with
  | settled horder =>
    refine ⟨?_, _, (List.append_nil _).symm, answers_latest_of_inGoodOrder horder⟩
    intro given hgiven
    cases hgiven
    rwa [List.append_nil]
  | @awaiting messages earlier m answered calls horder hrole hids hcalls hearlier =>
    constructor
    · intro given hgiven
      have hall : List.Forall₂ Message.Answers (earlier ++ given) m.toolCalls :=
        hcalls ▸ List.rel_append hearlier hgiven
      have hblock := horder.append (.exchange hrole hids hall)
      simpa using hblock
    · obtain ⟨hlatest, hresults⟩ :=
        latest_of_answers messages hrole hearlier calls
      exact ⟨answered, hlatest.trans hcalls, hresults.symm ▸ hearlier⟩

/-! ## Transcripts with a history -/

/-- A transcript that was begun or taken over and has been edited since, each edit at its own time.
The edits may have succeeded or failed. -/
inductive Arises : Transcript → Prop where
  | begin (stamps : Stamps) (system user : String) : Arises (.begin stamps system user)
  | adopt {stamps : Stamps} {messages : List Message} {t : Transcript}
      (h : Transcript.adopt stamps messages = .ok t) : Arises t
  | edit {t : Transcript} (h : Arises t) (stamps : Stamps) (edit : Edit) :
      Arises (edit.on stamps t).2

theorem Arises.sound (h : t.Arises) : t.Sound := by
  induction h with
  | begin stamps system user => exact .settled (inGoodOrder_pair rfl rfl)
  | adopt h => exact (sound_of_adopt h).1
  | edit _ stamps edit ih => exact Edit.sound_on ih

/-- Whatever was done to a transcript, its queue and its messages agree, and every further edit
only appends messages, succeeds exactly when it fits, and changes nothing when it fails. -/
theorem coherent_of_arises (h : t.Arises) :
    t.Coherent ∧ ∀ stamps edit, Edit.Behaves stamps t edit :=
  ⟨h.sound.coherent, fun stamps edit => edit.behaves stamps t⟩

/-- A transcript after one edit after another. -/
def edited (stamps : Stamps) (t : Transcript) (edits : List Edit) : Transcript :=
  edits.foldl (fun t edit => (edit.on stamps t).2) t

theorem Arises.edited (h : t.Arises) (stamps : Stamps) (edits : List Edit) :
    (t.edited stamps edits).Arises := by
  induction edits generalizing t with
  | nil => exact h
  | cons edit edits ih => exact ih (h.edit stamps edit)

/-- Two calls of which the first one was answered, after the second one had been answered too early
and the user had spoken out of turn. -/
def halfAnswered : Transcript :=
  edited (fun _ => default) (begin (fun _ => default) "Be brief." "What is it like outside?")
    [.pushAssistant (.assistant default "" [⟨"a", "weather", "{}"⟩, ⟨"b", "clock", "{}"⟩]),
      .pushToolResult "b" "noon", .pushUser "Well?", .pushToolResult "a" "sunny"]

/-- The two edits that failed left nothing behind, and the open call is the one that is left. -/
theorem coherent_of_arises_halfAnswered :
    halfAnswered.Arises ∧ halfAnswered.length = 4 ∧
      halfAnswered.pending = [⟨"b", "clock", "{}"⟩] ∧
      InGoodOrder (halfAnswered.messages ++ [.toolResult default ⟨"b", "clock", "{}"⟩ "noon"]) ∧
      ((Edit.pushToolResult "a" "rainy").on (fun _ => default) halfAnswered).2 = halfAnswered := by
  have harises : halfAnswered.Arises := (Arises.begin _ _ _).edited _ _
  have hpending : halfAnswered.pending = [⟨"b", "clock", "{}"⟩] := rfl
  obtain ⟨hcoherent, hbehaves⟩ := coherent_of_arises harises
  refine ⟨harises, rfl, hpending, hcoherent.inGoodOrder _ ?_, ?_⟩
  · rw [hpending]
    exact .cons (answers_toolResult _ _ _) .nil
  · exact (hbehaves _ _).atomic (.unknownCallId "a") (by decide)

end Transcript
end AgentLoop
