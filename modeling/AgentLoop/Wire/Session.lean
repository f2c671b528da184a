import AgentLoop.Script.Session
import AgentLoop.Wire.Governance

/-!
# The JSON form of session scripts

Scripts are only read.
-/

namespace AgentLoop

/-- Reads a scripted call. -/
def ScriptedCall.ofTree : Tree → Except ReadError ScriptedCall :=
  Tree.record ["id", "name", "arguments"] fun r =>
    ScriptedCall.mk <$> r.defaulted "id" Tree.toText "" <*> r.required "name" Tree.toText <*>
      r.defaulted "arguments" Tree.toJson .null

/-- Reads a scripted usage. -/
def ScriptedUsage.ofTree : Tree → Except ReadError ScriptedUsage :=
  Tree.record ["prompt_tokens", "completion_tokens"] fun r =>
    ScriptedUsage.mk <$> r.required "prompt_tokens" Tree.toNat32 <*>
      r.required "completion_tokens" Tree.toNat32

/-- Reads a scripted reply. -/
def ScriptedTurn.ofTree : Tree → Except ReadError ScriptedTurn :=
  Tree.record ["content", "tool_calls", "usage"] fun r =>
    ScriptedTurn.mk <$> r.defaulted "content" Tree.toText "" <*>
      r.defaulted "tool_calls" (Tree.toList ScriptedCall.ofTree) [] <*>
      r.defaulted "usage" (Tree.toOption ScriptedUsage.ofTree) none

/-- Reads a scripted tool. -/
def ScriptedTool.ofTree : Tree → Except ReadError ScriptedTool :=
  Tree.record ["description", "output", "error", "read_only", "delay_ms"] fun r =>
    ScriptedTool.mk <$> r.defaulted "description" Tree.toText "" <*>
      r.defaulted "output" (Tree.toOption Tree.toText) none <*>
      r.defaulted "error" (Tree.toOption Tree.toText) none <*>
      r.defaulted "read_only" Tree.toBool false <*> r.defaulted "delay_ms" Tree.toNat64 0

namespace Session

/-- Reads a script. -/
def ofTree : Tree → Except ReadError Session :=
  Tree.record ["system", "user", "caller", "autonomy", "allowed_tools", "turns", "tools"] fun r =>
    Session.mk <$> r.required "system" Tree.toText <*> r.required "user" Tree.toText <*>
      r.defaulted "caller" (Tree.toOption Tree.toText) none <*>
      r.defaulted "autonomy" (Tree.toOption AutonomyLevel.ofTree) none <*>
      r.defaulted "allowed_tools" (Tree.toOption (Tree.toList Tree.toText)) none <*>
      r.required "turns" (Tree.toList ScriptedTurn.ofTree) <*>
      r.defaulted "tools" (Tree.toKeyed ScriptedTool.ofTree) []

/-- Reads the text of a script. -/
def read (text : String) : Except ReadError Session := Json.readAs ofTree text

end Session

end AgentLoop
