import AgentLoop.Number.Binary

/-!
# The configuration of a run

* `LoopConfig` holds the caps of a run and what is asked of the model.
-/

namespace AgentLoop

/-- The configuration of a run. -/
structure LoopConfig where
  /-- The number of turns. -/
  maxIterations : Nat
  /-- The number of calls of one reply that are dispatched. -/
  maxToolCallsPerIteration : Nat
  /-- A text is only accepted as an answer when the model says it twice. -/
  doubleConfirmation : Bool
  /-- The number of failures in a row that ends a run. -/
  errorThreshold : Nat
  /-- The time that one execution may take, in milliseconds. -/
  toolCallTimeoutMs : Nat
  model : String
  /-- The sampling temperature, a 32-bit number. -/
  temperature : Binary
  maxTokens : Option Nat
  deriving DecidableEq, Repr

namespace LoopConfig

/-- The configuration of a run that was not configured. -/
def default : LoopConfig :=
  { maxIterations := 20
    maxToolCallsPerIteration := 5
    doubleConfirmation := true
    errorThreshold := 3
    toolCallTimeoutMs := 30000
    model := "default"
    temperature := binary32.ofDecimal false 2 (-1)
    maxTokens := none }

instance : Inhabited LoopConfig := ⟨default⟩

/-- The configuration with another timeout, which stays at the largest count of 64 bits. -/
def withTimeoutMs (c : LoopConfig) (millis : Nat) : LoopConfig :=
  { c with toolCallTimeoutMs := min millis 0xffffffffffffffff }

end LoopConfig

end AgentLoop
