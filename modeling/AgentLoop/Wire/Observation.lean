import AgentLoop.Observation.Basic
import AgentLoop.Wire.Field

/-!
# The JSON form of observations
-/

namespace AgentLoop

namespace ObservationKind

/-- A kind is written as its name. -/
def toJson (k : ObservationKind) : Json := .str k.name

/-- Reads a kind. -/
def ofTree : Tree → Except ReadError ObservationKind :=
  Tree.named name [modelReply, toolCall]

end ObservationKind

namespace Observation

/-- The fields of an observation. -/
def toJson (o : Observation) : Json :=
  .obj [("type", o.kind.toJson), ("content", .str o.content), ("metadata", .obj o.metadata),
    ("timestamp", .timestamp o.timestamp)]

/-- Reads an observation. -/
def ofTree : Tree → Except ReadError Observation :=
  Tree.record ["type", "content", "metadata", "timestamp"] fun r =>
    Observation.mk <$> r.required "type" ObservationKind.ofTree <*>
      r.required "content" Tree.toText <*> r.defaulted "metadata" Tree.toJsonObject [] <*>
      r.required "timestamp" Tree.toTimestamp

end Observation

end AgentLoop
