import AgentLoop.Conversation.Message
import AgentLoop.Text.Blank

/-!
# Ids of the calls of a reply

A model may leave the id of a call blank or use one twice.  Such an id is replaced by one made
of the turn and the position of the call, so that each call can be answered by itself.

* `normalizeCalls` goes through the calls of a reply in order and remembers the ids it has given.
-/

namespace AgentLoop

/-- The id made of a turn and a position. -/
def madeId (iteration index : Nat) : String := s!"call_{iteration}_{index}"

/-- The calls from a position on; `seen` are the ids of those before. -/
def normalizeFrom (iteration : Nat) (seen : List String) (index : Nat) :
    List ToolCall → List ToolCall
  | [] => []
  | call :: calls =>
    let id :=
      if Text.allBlank call.id || seen.contains call.id then madeId iteration index else call.id
    { call with id } :: normalizeFrom iteration (id :: seen) (index + 1) calls

/-- The calls of a reply, each with an id of its own: blank ids, and ids that an earlier call
has, are replaced. -/
def normalizeCalls (iteration : Nat) (calls : List ToolCall) : List ToolCall :=
  normalizeFrom iteration [] 0 calls

end AgentLoop
