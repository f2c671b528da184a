/-!
# Waiting

A run waits at two points only: for the reply of the model and for the outcome of a tool.  What
it waits for comes after a delay, or never; the wait for a tool is limited; and a cancellation may
fire meanwhile.  All times are in milliseconds on one clock.  It moves on while a run waits, and
right before that by the time that the run took by itself.

* `Pending` is a result that comes after a delay.
* `Cancellation` is the time at which a cancellation fires, if it ever does.
* `await` says how a wait ends: `Waited.done`, `timedOut`, `cancelled`, or never.
-/

namespace AgentLoop

/-- A result that comes after a delay, or never. -/
structure Pending (α : Type) where
  delay : Option Nat
  result : α
  deriving DecidableEq, Repr, Inhabited

namespace Pending

/-- A result that comes at once. -/
def now {α : Type} (result : α) : Pending α := ⟨some 0, result⟩

/-- The result changed, the delay kept. -/
def map {α β : Type} (f : α → β) (p : Pending α) : Pending β := ⟨p.delay, f p.result⟩

end Pending

/-- The time at which a cancellation fires, if it ever does. -/
abbrev Cancellation := Option Nat

/-- The cancellation has fired. -/
def Cancellation.fired (cancel : Cancellation) (now : Nat) : Bool :=
  match cancel with
  | some time => time ≤ now
  | none => false

/-- How a wait ends, with the time at its end. -/
inductive Waited where
  | done (time : Nat)
  | timedOut (time : Nat)
  | cancelled (time : Nat)
  /-- It does not end. -/
  | forever
  deriving DecidableEq, Repr

/-- How a wait would end if nobody cancelled it.  What comes exactly at the limit comes in time. -/
def awaitUndisturbed (limit : Option Nat) (now : Nat) (delay : Option Nat) : Waited :=
  match delay, limit with
  | some delay, none => .done (now + delay)
  | some delay, some limit => if delay ≤ limit then .done (now + delay) else .timedOut (now + limit)
  | none, some limit => .timedOut (now + limit)
  | none, none => .forever

/-- How a wait ends that begins at a time when no cancellation has fired. -/
def await (cancel : Cancellation) (limit : Option Nat) (now : Nat) (delay : Option Nat) : Waited :=
  match cancel, awaitUndisturbed limit now delay with
  | none, waited => waited
  | some time, .done finish => if time ≤ finish then .cancelled time else .done finish
  | some time, .timedOut finish => if time ≤ finish then .cancelled time else .timedOut finish
  | some time, _ => .cancelled time

end AgentLoop
