import AgentLoop.Observation.Basic

/-!
# The observation bus

A bus hands every observation to all who have subscribed before.  It keeps a fixed number of the
latest observations, a power of two; a subscriber who falls behind by more misses the oldest, is
told how many, and goes on with the oldest one kept.

* `Bus.subscribe`, `Bus.record` and `Bus.receive` are the operations; subscribers are numbered.
* `Received` is what a subscriber gets.
-/

namespace AgentLoop

/-- The smallest power of two that is not below a number. -/
def powerOfTwoFrom (n : Nat) : Nat :=
  if n ≤ 1 then 1 else Nat.pow 2 ((n - 1).log2 + 1)

/-- What a subscriber gets. -/
inductive Received where
  | observation (o : Observation)
  /-- There is nothing new. -/
  | empty
  /-- Some observations were missed. -/
  | lagged (missed : Nat)
  deriving DecidableEq, Repr

/-- A bus: the number of observations it keeps, those recorded so far, and for each subscriber the
number of those behind it. -/
structure Bus where
  capacity : Nat
  recorded : List Observation
  positions : List Nat
  deriving DecidableEq, Repr

namespace Bus

/-- The capacity of a bus unless told otherwise. -/
def defaultCapacity : Nat := 256

/-- A bus that keeps at least some observations; none cannot be asked for. -/
def ofCapacity? (capacity : Nat) : Option Bus :=
  if capacity = 0 then none else some ⟨powerOfTwoFrom capacity, [], []⟩

/-- The bus with one more subscriber, who sees only what is recorded from now on. -/
def subscribe (b : Bus) : Nat × Bus :=
  (b.positions.length, { b with positions := b.positions ++ [b.recorded.length] })

/-- The bus after an observation. -/
def record (b : Bus) (o : Observation) : Bus :=
  { b with recorded := b.recorded ++ [o] }

/-- What a subscriber gets next. -/
def receive (b : Bus) (subscriber : Nat) : Received × Bus :=
  let position := b.positions.getD subscriber b.recorded.length
  let oldest := b.recorded.length - b.capacity
  if position < oldest then
    (.lagged (oldest - position), { b with positions := b.positions.set subscriber oldest })
  else
    match b.recorded[position]? with
    | some o => (.observation o, { b with positions := b.positions.set subscriber (position + 1) })
    | none => (.empty, b)

end Bus

end AgentLoop
