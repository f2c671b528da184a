import AgentLoop.Run.CallIds
import AgentLoop.Run.Collaborators
import AgentLoop.Run.Event
import AgentLoop.Run.Termination

/-!
# Controllers, invocations and stretches

A controller holds what all its runs share: the configuration, the collaborators and the context
of the caller.  An invocation is what makes one run: the messages it begins with, the tools on
offer, the identities it gives out, and when it is cancelled.

A run is put together from stretches.  A stretch leads from where the run stands to where it stands
next, adds to the journal, and says how the run flows on; `Stretch.andThen` puts one after another.

* `Controller` and `Invocation` are the data, `Stand` is where a run stands.
* `Flow` says whether a run goes on, `Stretch` is a stretch of it.
-/

namespace AgentLoop

/-- What all runs of one controller share. -/
structure Controller (M G B X : Type) where
  config : LoopConfig
  model : ModelClient M
  gate : Gate G
  budget : BudgetTracker B
  executor : ToolExecutor X
  resolver : Resolver
  /-- The context of the caller. -/
  context : ExecutionContext
  /-- The point in time at which the clock shows zero. -/
  epoch : Timestamp
  /-- The time that a run takes by itself before it waits for the model or for a tool. -/
  lag : World M G B X → Nat := fun _ => 0

/-- What makes one run. -/
structure Invocation where
  id : String
  /-- The id that the tracer gives to the trace of the run. -/
  traceId : String
  /-- The id of a new message from its position in the conversation. -/
  messageId : Nat → String
  seed : List Message
  tools : List ToolDefinition
  cancel : Cancellation

/-- Where a run stands: its own state and the world around it. -/
structure Stand (M G B X : Type) where
  state : LoopState
  world : World M G B X

/-- How a run flows on. -/
inductive Flow where
  | goOn
  | stop (reason : TerminationReason) (output : JsonObject)
  | cancelled
  | failed (error : LoopError)
  /-- The run waits for something that never comes. -/
  | stalled
  deriving DecidableEq, Repr

/-- A stretch of a run. -/
structure Stretch (M G B X : Type) where
  stand : Stand M G B X
  journal : Journal
  flow : Flow

namespace Stretch

variable {M G B X : Type}

/-- One stretch after another; the second is entered only if the run goes on after the first. -/
def andThen (first : Stretch M G B X) (next : Stand M G B X → Stretch M G B X) :
    Stretch M G B X :=
  match first.flow with
  | .goOn =>
    let second := next first.stand
    ⟨second.stand, first.journal ++ second.journal, second.flow⟩
  | flow => ⟨first.stand, first.journal, flow⟩

/-- A stretch with some earlier entries in front of its journal. -/
def after (journal : Journal) (s : Stretch M G B X) : Stretch M G B X :=
  { s with journal := journal ++ s.journal }

end Stretch

namespace Stand

variable {M G B X : Type}

/-- The stand with another state of the run. -/
def withState (s : Stand M G B X) (state : LoopState) : Stand M G B X := { s with state }

/-- The stand with another transcript. -/
def withTranscript (s : Stand M G B X) (transcript : Transcript) : Stand M G B X :=
  { s with state := { s.state with transcript } }

/-- An entry of the journal made now. -/
def entry (s : Stand M G B X) (event : Event) : Entry := ⟨s.world.now, event⟩

end Stand

namespace Controller

variable {M G B X : Type}

/-- The stamps of new messages of a run at a time of the clock. -/
def stamps (c : Controller M G B X) (inv : Invocation) (now : Nat) : Stamps := fun position =>
  ⟨inv.messageId position, c.epoch.addMillis now⟩

/-- The context of the calls of a run: that of the caller, with the id of the run. -/
def contextOf (c : Controller M G B X) (inv : Invocation) : ExecutionContext :=
  { c.context with invocationId := inv.id }

/-- The world when a run begins to wait. -/
def arrived (c : Controller M G B X) (w : World M G B X) : World M G B X :=
  { w with now := w.now + c.lag w }

end Controller

end AgentLoop
