import AgentLoop.Conversation.Message

/-!
# Transcripts

A transcript is a conversation under discipline: it begins with a system message and a user
message, it is only ever appended to, and the calls of a message of the assistant are answered in
the order in which they were issued before anything else is said.

* `Transcript.begin` starts one and `Transcript.adopt` takes over a list of messages.
* `Transcript.pushAssistant`, `pushToolResult` and `pushUser` append one message or refuse to,
  `closePending` answers every open call with the same text.
* `TranscriptError` lists the ways to break the discipline.

New messages are stamped by their position: every operation takes the stamps of all positions and
uses those of the messages it appends.
-/

namespace AgentLoop

/-- The ways in which messages can fail to be a disciplined conversation. -/
inductive TranscriptError where
  | missingSystem
  | missingInitialUser
  | duplicateSystem
  | unexpectedRole (expected found : Role)
  /-- The call still waits for its result. -/
  | unansweredCall (id : String)
  /-- No open call has this id. -/
  | unknownCallId (id : String)
  /-- An open call was answered before its turn. -/
  | outOfOrder (expected found : String)
  /-- Two calls of one reply share an id. -/
  | duplicateCallId (id : String)
  | missingCallId
  deriving DecidableEq, Repr, Inhabited

/-- The wording of an error. -/
def TranscriptError.message : TranscriptError → String
  | missingSystem => "transcript must start with a system message"
  | missingInitialUser => "transcript must have a user message right after the system message"
  | duplicateSystem => "transcript may contain only one system message"
  | unexpectedRole expected found =>
    s!"expected a message with role {expected.name}, found {found.name}"
  | unansweredCall id => s!"tool call {id} has not been answered yet"
  | unknownCallId id => s!"tool result references unknown call id {id}"
  | outOfOrder expected found =>
    s!"tool result for {found} arrived before the result for {expected}"
  | duplicateCallId id => s!"tool call id {id} appears twice in one reply"
  | missingCallId => "tool message without a tool_call_id"

/-- The stamps of all positions of a conversation. -/
abbrev Stamps := Nat → Stamp

/-- A conversation and the calls that still wait for a result, in the order of issue. -/
structure Transcript where
  messages : List Message
  pending : List ToolCall
  deriving DecidableEq, Repr, Inhabited

/-- The first id that occurs a second time. -/
def firstRepeated? (seen : List String) : List String → Option String
  | [] => none
  | id :: ids => if id ∈ seen then some id else firstRepeated? (id :: seen) ids

namespace Transcript

/-- The number of messages. -/
def length (t : Transcript) : Nat := t.messages.length

/-- No call waits for a result. -/
def isSettled (t : Transcript) : Bool := t.pending.isEmpty

/-- The latest message of the assistant. -/
def lastAssistant? (t : Transcript) : Option Message :=
  t.messages.reverse.find? fun m => m.role == .assistant

/-- A transcript of a system message and a user message. -/
def begin (stamps : Stamps) (system user : String) : Transcript :=
  ⟨[.system (stamps 0) system, .user (stamps 1) user], []⟩

/-- Appends a reply of the model, whose calls then wait for their results. -/
def pushAssistant (t : Transcript) (m : Message) : Except TranscriptError Transcript :=
  if m.role ≠ .assistant then .error (.unexpectedRole .assistant m.role)
  else
    match t.pending with
    | call :: _ => .error (.unansweredCall call.id)
    | [] =>
      match firstRepeated? [] (m.toolCalls.map ToolCall.id) with
      | some id => .error (.duplicateCallId id)
      | none => .ok ⟨t.messages ++ [m], m.toolCalls⟩

/-- Answers the call that is next in turn. -/
def pushToolResult (stamps : Stamps) (t : Transcript) (id content : String) :
    Except TranscriptError Transcript :=
  match t.pending with
  | [] => .error (.unknownCallId id)
  | call :: calls =>
    if call.id = id then .ok ⟨t.messages ++ [.toolResult (stamps t.length) call content], calls⟩
    else if id ∈ calls.map ToolCall.id then .error (.outOfOrder call.id id)
    else .error (.unknownCallId id)

/-- Appends a user message. -/
def pushUser (stamps : Stamps) (t : Transcript) (content : String) :
    Except TranscriptError Transcript :=
  match t.pending with
  | call :: _ => .error (.unansweredCall call.id)
  | [] => .ok ⟨t.messages ++ [.user (stamps t.length) content], []⟩

/-- The answers to calls from a position on, all with the same content. -/
def answers (stamps : Stamps) (content : String) : Nat → List ToolCall → List Message
  | _, [] => []
  | n, call :: calls => .toolResult (stamps n) call content :: answers stamps content (n + 1) calls

/-- Answers every open call with the same content. -/
def closePending (stamps : Stamps) (t : Transcript) (content : String) : Transcript :=
  ⟨t.messages ++ answers stamps content t.length t.pending, []⟩

/-- Appends one message of a conversation that is taken over.  A message of the assistant is kept
as it is; user messages and results are made anew from their content. -/
def take (stamps : Stamps) (t : Transcript) (m : Message) : Except TranscriptError Transcript :=
  match m.role with
  | .system => .error .duplicateSystem
  | .user => t.pushUser stamps m.content
  | .assistant => t.pushAssistant m
  | .tool =>
    match m.toolCallId with
    | none => .error .missingCallId
    | some id => t.pushToolResult stamps id m.content

/-- Appends the messages of a conversation that is taken over, up to the first one that does not
fit. -/
def takeAll (stamps : Stamps) (t : Transcript) : List Message → Except TranscriptError Transcript
  | [] => .ok t
  | m :: ms =>
    match t.take stamps m with
    | .error e => .error e
    | .ok t => t.takeAll stamps ms

/-- Takes over a list of messages.  It must begin with a system and a user message, keep the
discipline, and leave no call open. -/
def adopt (stamps : Stamps) : List Message → Except TranscriptError Transcript
  | [] => .error .missingSystem
  | system :: rest =>
    if system.role ≠ .system then .error .missingSystem
    else
      match rest with
      | [] => .error .missingInitialUser
      | user :: rest =>
        if user.role ≠ .user then .error .missingInitialUser
        else
          match takeAll stamps ⟨[system, user], []⟩ rest with
          | .error e => .error e
          | .ok t =>
            match t.pending with
            | [] => .ok t
            | call :: _ => .error (.unansweredCall call.id)

end Transcript

end AgentLoop
