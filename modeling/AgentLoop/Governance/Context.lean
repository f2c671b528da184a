import AgentLoop.Collection.NameSet
import AgentLoop.Conversation.Message
import AgentLoop.Json.Basic
import AgentLoop.Text.Blank

/-!
# On whose behalf a tool is called

Every tool call is made in a context: who asked for it, how free the agent is to act, and which
tools the caller allows.  The allow-list can only ever be narrowed.

* `AutonomyLevel` has three levels, `AutonomyLevel.read` reads one from a text.
* `ExecutionContext.permits` and `ExecutionContext.narrowed` are the allow-list;
  `permits_narrowed` says what narrowing does to it.
* `Resolver` finds the context of one call, `Resolver.passThrough` and `Resolver.allowList` are the
  two at hand.
-/

namespace AgentLoop

/-- How free the agent is to act. -/
inductive AutonomyLevel where
  /-- It may look but not touch. -/
  | readOnly
  /-- It has to ask for what is escalated. -/
  | supervised
  /-- It may do everything. -/
  | full
  deriving DecidableEq, Repr

instance : Inhabited AutonomyLevel := ⟨.supervised⟩

namespace AutonomyLevel

/-- The name of a level. -/
def name : AutonomyLevel → String
  | readOnly => "read_only"
  | supervised => "supervised"
  | full => "full"

/-- The level that a text names, whatever its case and the blanks around it; or the text that
names none. -/
def read (text : String) : Except String AutonomyLevel :=
  let word := Text.lowerAscii (Text.trim text)
  if word = "read_only" ∨ word = "readonly" then .ok readOnly
  else if word = "supervised" then .ok supervised
  else if word = "full" then .ok full
  else .error word

/-- The wording of the error about a text that names no level. -/
def unknownMessage (word : String) : String :=
  s!"unknown autonomy level '{word}'"

end AutonomyLevel

/-- The context of a tool call. -/
structure ExecutionContext where
  invocationId : String
  caller : String
  autonomy : AutonomyLevel
  /-- The tools that the caller allows; without a list, all of them. -/
  allowedTools : Option NameSet
  metadata : JsonObject
  deriving DecidableEq, Repr

namespace ExecutionContext

/-- The context of an unnamed caller who allows everything. -/
def unrestricted : ExecutionContext := ⟨"", "", .supervised, none, []⟩

instance : Inhabited ExecutionContext := ⟨unrestricted⟩

/-- The context of a caller at a level, with no other restriction. -/
def ofCaller (caller : String) (autonomy : AutonomyLevel) : ExecutionContext :=
  { unrestricted with caller, autonomy }

/-- The caller allows the tool. -/
def permits (c : ExecutionContext) (tool : String) : Bool :=
  match c.allowedTools with
  | none => true
  | some allowed => allowed.contains tool

/-- The context with only those of the allowed tools that a list names. -/
def narrowed (c : ExecutionContext) (tools : List String) : ExecutionContext :=
  let requested := NameSet.ofList tools
  { c with
    allowedTools := some <|
      match c.allowedTools with
      | none => requested
      | some allowed => NameSet.inter allowed requested }

/-- A narrowed context permits what the context and the list both permit. -/
theorem permits_narrowed (c : ExecutionContext) (tools : List String) (tool : String) :
    (c.narrowed tools).permits tool = true ↔ c.permits tool = true ∧ tool ∈ tools := by
  cases h : c.allowedTools with
  | none => simp [permits, narrowed, h, NameSet.mem_ofList]
  | some allowed =>
    simp [permits, narrowed, h, NameSet.inter, NameSet.mem_ofList]

end ExecutionContext

/-- Finds the context of one call from that of the caller. -/
def Resolver : Type := ToolCall → ExecutionContext → ExecutionContext

namespace Resolver

/-- The context of the caller, unchanged. -/
def passThrough : Resolver := fun _ base => base

/-- The context of the caller, narrowed to some tools. -/
def allowList (tools : List String) : Resolver := fun _ base => base.narrowed tools

end Resolver

end AgentLoop
