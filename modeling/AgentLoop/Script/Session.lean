import AgentLoop.Arguments
import AgentLoop.Config.Basic
import AgentLoop.Run.Controller

/-!
# Session scripts

A session script pins down everything that a run would otherwise get from the world: the two
messages it begins with, every reply of the model in order, and what each tool comes to.

* `Session` with `ScriptedTurn` and `ScriptedTool` is the data.
* `Session.seed`, `context`, `registry` and `replies` are what a run gets from it.
* `Script` is the state of the scripted model, `Script.client` the model.
-/

namespace AgentLoop

/-- A call in a scripted reply.  The arguments are a text, or a value that stands for its text. -/
structure ScriptedCall where
  id : String
  name : String
  arguments : Json
  deriving DecidableEq, Repr

/-- The usage in a scripted reply. -/
structure ScriptedUsage where
  promptTokens : Nat
  completionTokens : Nat
  deriving DecidableEq, Repr

/-- A scripted reply of the model. -/
structure ScriptedTurn where
  content : String
  calls : List ScriptedCall
  usage : Option ScriptedUsage
  deriving DecidableEq, Repr

/-- A scripted tool: it fails if it has an error, and otherwise gives its output. -/
structure ScriptedTool where
  description : String
  output : Option String
  error : Option String
  /-- It is harmless. -/
  readOnly : Bool
  delayMs : Nat
  deriving DecidableEq, Repr

/-- A session script. -/
structure Session where
  system : String
  user : String
  caller : Option String
  /-- The level of autonomy, instead of the configured one. -/
  autonomy : Option AutonomyLevel
  allowedTools : Option (List String)
  turns : List ScriptedTurn
  tools : Keyed ScriptedTool
  deriving DecidableEq, Repr

/-- The call that a scripted call stands for. -/
def ScriptedCall.toCall (c : ScriptedCall) : ToolCall :=
  ⟨c.id, c.name, Arguments.write c.arguments⟩

/-- The name of the scripted model. -/
def scriptedModelName : String := "replay"

/-- The reply that a scripted turn stands for. -/
def ScriptedTurn.toReply (t : ScriptedTurn) : ModelReply :=
  { content := t.content
    toolCalls := t.calls.map ScriptedCall.toCall
    finishReason := .stop
    usage := t.usage.map fun u => .of u.promptTokens u.completionTokens
    model := scriptedModelName }

/-- The tool that a scripted tool stands for. -/
def ScriptedTool.toTool (name : String) (t : ScriptedTool) : Tool :=
  { definition := ⟨name, t.description, .obj [("type", .str "object")]⟩
    run := fun _ _ =>
      { delay := some t.delayMs
        result :=
          match t.error with
          | some reason => .error (.executionFailed name reason)
          | none => .ok (t.output.getD "") } }

namespace Session

/-- The messages that the run begins with. -/
def seed (s : Session) (stamps : Stamps) : List Message :=
  [.system (stamps 0) s.system, .user (stamps 1) s.user]

/-- The caller of the run, with the level of autonomy that holds if the script names none. -/
def context (s : Session) (level : AutonomyLevel) : ExecutionContext :=
  let c := ExecutionContext.ofCaller (s.caller.getD scriptedModelName) (s.autonomy.getD level)
  match s.allowedTools with
  | some tools => c.narrowed tools
  | none => c

/-- The names of the tools that are harmless. -/
def readOnlyTools (s : Session) : List String :=
  (s.tools.filter fun entry => entry.2.readOnly).map Prod.fst

/-- The tools. -/
def registry (s : Session) : Registry :=
  .ofTools (s.tools.map fun (name, tool) => tool.toTool name)

/-- The replies of the model. -/
def replies (s : Session) : List ModelReply := s.turns.map ScriptedTurn.toReply

end Session

/-- The replies that a scripted model has left, and the number of those it has given. -/
structure Script where
  left : List ModelReply
  served : Nat
  deriving DecidableEq, Repr

namespace Script

/-- A script of which nothing was given yet. -/
def ofReplies (replies : List ModelReply) : Script := ⟨replies, 0⟩

/-- The next reply. -/
def next : Script → Except ModelError ModelReply × Script
  | ⟨reply :: left, served⟩ => (.ok reply, ⟨left, served + 1⟩)
  | ⟨[], served⟩ => (.error (.exhausted served), ⟨[], served⟩)

/-- All replies that a script still gives, and the error that it gives from then on. -/
def rest (s : Script) : List ModelReply × ModelError :=
  (s.left, .exhausted (s.served + s.left.length))

/-- The model that gives the replies of a script in order, at once. -/
def client : ModelClient Script where
  ask _ script := (.now script.next.1, script.next.2)

end Script

end AgentLoop
