import AgentLoop.Number.Binary

/-!
# The shortest decimal of a binary number

A binary number is written with the fewest decimal digits that read back as the same number.
Around every number lies an interval of reals that round to it; the decimals worth writing are
the points of the coarsest grid `10 ^ place` that meets that interval, and of those the one
nearest to the number is taken; if two are equally near, a `Tie` decides.

* `Interval` is that interval in exact integers, `Interval.of` computes it.
* `Interval.pick` looks for a point of one grid, `search` for the coarsest grid with a point.
* `shortest` gives digits and place; how they are laid out as text is a separate choice.

All arithmetic is on natural numbers, so the result is exact in every format.
-/

namespace AgentLoop

/-- A positive number with the interval of reals that round to it, all three over one
denominator.  The ends belong to the interval when `closed` holds. -/
structure Interval where
  low : Nat
  value : Nat
  high : Nat
  den : Nat
  closed : Bool
  deriving DecidableEq, Repr

/-- Which of two decimals is taken that are equally near to a number. -/
inductive Tie where
  /-- The one with the even last digit. -/
  | toEven
  /-- The larger one. -/
  | up
  deriving DecidableEq, Repr

/-- A positive decimal `digits · 10 ^ place`. -/
structure Decimal where
  digits : Nat
  place : Int
  deriving DecidableEq, Repr

namespace Interval

/-- The reals that round to `significand · 2 ^ exponent`.  Below a power of two the neighbour is
only half as far away, and the ends round to the even significand. -/
def of (f : BinaryFormat) (significand : Nat) (exponent : Int) : Interval :=
  let below := if significand = Nat.pow 2 (f.precision - 1) ∧ f.minScale < exponent then 1 else 2
  let scale := exponent - 2
  let up := Nat.pow 2 scale.toNat
  { low := (4 * significand - below) * up
    value := 4 * significand * up
    high := (4 * significand + 2) * up
    den := Nat.pow 2 (-scale).toNat
    closed := significand % 2 = 0 }

/-- The point lies in the interval; point and interval have the same denominator. -/
def holds (i : Interval) (point : Nat) : Bool :=
  if i.closed then i.low ≤ point && point ≤ i.high else i.low < point && point < i.high

/-- The interval measured in units of `10 ^ place`. -/
def inUnitsOf (i : Interval) (place : Int) : Interval :=
  let up := Nat.pow 10 (-place).toNat
  { i with
    low := i.low * up
    value := i.value * up
    high := i.high * up
    den := i.den * Nat.pow 10 place.toNat }

/-- The point of the grid of whole units that lies in the interval and is nearest to the value. -/
def pick (i : Interval) (tie : Tie) : Option Nat :=
  let down := i.value / i.den
  let up := down + 1
  match i.holds (down * i.den), i.holds (up * i.den) with
  | false, false => none
  | true, false => some down
  | false, true => some up
  | true, true =>
    let before := i.value - down * i.den
    let after := up * i.den - i.value
    if before < after then some down
    else if after < before then some up
    else if tie = .toEven ∧ down % 2 = 0 then some down
    else some up

/-- The decimal on the coarsest grid with a point in the interval, among the `tries` grids from
`10 ^ place` downwards. -/
def search (i : Interval) (tie : Tie) (tries : Nat) (place : Int) : Option Decimal :=
  match tries with
  | 0 => none
  | tries + 1 =>
    match (i.inUnitsOf place).pick tie with
    | some digits => some ⟨digits, place⟩
    | none => search i tie tries (place - 1)

end Interval

/-- A place above every decimal that could stand for a number below `2 ^ (bits + 1)`: the factor
is a little more than the decimal logarithm of two. -/
def placeAbove (bits : Int) : Int := (bits + 1) * 30103 / 100000 + 1

/-- The shortest decimal that rounds to `significand · 2 ^ exponent`, for a positive
significand.  A format with `precision` bits needs no more than `precision` grids. -/
def shortest (f : BinaryFormat) (tie : Tie) (significand : Nat) (exponent : Int) : Decimal :=
  ((Interval.of f significand exponent).search tie (f.precision + 2)
    (placeAbove (significand.log2 + 1 + exponent))).getD ⟨0, 0⟩

end AgentLoop
