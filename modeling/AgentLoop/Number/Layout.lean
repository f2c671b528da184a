import AgentLoop.Number.Shortest

/-!
# The text of a binary number

Digits and place of a shortest decimal become text in one of two ways: positional, with at least
one digit on both sides of the point, or scientific, with a signed exponent.  A `Layout` says
which exponents are written positionally, and which of two decimals is written that are equally
near; it is the only thing in which the three texts of this library differ.
-/

namespace AgentLoop

/-- How a binary number is written: which exponents of the leading digit are written without an
exponent part, and what decides between two decimals that are equally near. -/
structure Layout where
  positional : Int → Bool
  tie : Tie

namespace Layout

/-- JSON text of a 64-bit number: positional from `0.00001` up to sixteen digits before the
point, scientific with a signed exponent elsewhere. -/
def json64 : Layout := ⟨fun e => -5 ≤ e && e ≤ 15, .toEven⟩

/-- JSON text of a 32-bit number: positional from `0.000001` up to thirteen digits before the
point, scientific with a signed exponent elsewhere. -/
def json32 : Layout := ⟨fun e => -6 ≤ e && e ≤ 12, .toEven⟩

/-- TOML text: always positional, and a half goes up. -/
def toml : Layout := ⟨fun _ => true, .up⟩

/-- The digits of a natural number in base ten. -/
def digitsOf (n : Nat) : List Char := (Nat.toDigits 10 n)

/-- The positional text of `digits · 10 ^ place`, with at least one digit on both sides of the
point. -/
def layPositional (digits : List Char) (place : Int) : List Char :=
  if 0 ≤ place then digits ++ List.replicate place.toNat '0' ++ ['.', '0']
  else
    let fraction := (-place).toNat
    if fraction < digits.length then
      digits.take (digits.length - fraction) ++ '.' :: digits.drop (digits.length - fraction)
    else ['0', '.'] ++ List.replicate (fraction - digits.length) '0' ++ digits

/-- The scientific text: one digit, a point if more follow, and an exponent with its sign. -/
def layScientific (digits : List Char) (exponent : Int) : List Char :=
  let mantissa :=
    match digits with
    | [] => []
    | [d] => [d]
    | d :: ds => d :: '.' :: ds
  let sign := if exponent < 0 then '-' else '+'
  mantissa ++ 'e' :: sign :: digitsOf exponent.natAbs

/-- The text of a decimal. -/
def lay (n : Layout) (d : Decimal) : List Char :=
  let digits := digitsOf d.digits
  let exponent : Int := d.place + digits.length - 1
  if n.positional exponent then layPositional digits d.place else layScientific digits exponent

/-- The text of a finite number of the format; `none` for the others. -/
def write (n : Layout) (f : BinaryFormat) : Binary → Option (List Char)
  | .finite negative 0 _ => some ((if negative then ['-'] else []) ++ ['0', '.', '0'])
  | .finite negative m e =>
    some ((if negative then ['-'] else []) ++ n.lay (shortest f n.tie m e))
  | _ => none

end Layout

end AgentLoop
