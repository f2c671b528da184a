/-!
# Binary floating-point numbers

A number that is not an integer is kept in one of two binary formats: 64 bits for free-form
JSON, 32 bits for a sampling temperature.  A number is its exact value
`± significand · 2 ^ exponent`, and every operation is the exact one followed by rounding to
nearest with ties to the even significand.

* `BinaryFormat` names precision and exponent range; `binary64` and `binary32` are the two used.
* `BinaryFormat.round` rounds a quotient of natural numbers, `ofDecimal` a decimal numeral,
  `ofInt` an integer, and `narrow` a number of another format.
* `BinaryFormat.product` and `quotient` multiply and divide two numbers, and `scaleDecimal` applies
  them to an integer and a power of ten.
* Equality is equality of values, except that the two zeros differ.
-/

namespace AgentLoop

/-- A binary floating-point number in the least exponent that its format allows: zero or an
exact value, an infinity, or no number at all. -/
inductive Binary where
  /-- The value `± significand · 2 ^ exponent`. -/
  | finite (negative : Bool) (significand : Nat) (exponent : Int)
  /-- Larger than every finite number of the format. -/
  | infinite (negative : Bool)
  /-- Not a number. -/
  | nan
  deriving DecidableEq, Repr, Inhabited

/-- A binary format: the number of bits of a significand, and the largest exponent of a
normal number written as `1.… · 2 ^ maxExponent`. -/
structure BinaryFormat where
  precision : Nat
  maxExponent : Nat
  deriving DecidableEq, Repr

/-- The 64-bit format, with 53 bits of precision. -/
def binary64 : BinaryFormat := ⟨53, 1023⟩

/-- The 32-bit format, with 24 bits of precision. -/
def binary32 : BinaryFormat := ⟨24, 127⟩

namespace BinaryFormat

variable (f : BinaryFormat)

/-- The exponent of the last bit of a subnormal number; no exponent is smaller. -/
def minScale : Int := 2 - (f.maxExponent : Int) - f.precision

/-- The exponent of the last bit of the largest numbers; no exponent is larger. -/
def maxScale : Int := (f.maxExponent : Int) + 1 - f.precision

/-- Zero with a sign. -/
def zero (negative : Bool) : Binary := .finite negative 0 f.minScale

/-- The quotient `num / den` rounded to an integer, a half going to the even neighbour. -/
def roundQuotient (num den : Nat) : Nat :=
  let q := num / den
  let r := num % den
  if 2 * r < den then q
  else if den < 2 * r then q + 1
  else if q % 2 = 0 then q else q + 1

/-- The quotient `num / (den · 2 ^ scale)` rounded to an integer. -/
def roundScaled (num den : Nat) (scale : Int) : Nat :=
  if 0 ≤ scale then roundQuotient num (den * Nat.pow 2 scale.toNat)
  else roundQuotient (num * Nat.pow 2 (-scale).toNat) den

/-- The scale in which the positive quotient `num / den` has exactly `precision` bits before
rounding, but none below the smallest scale.  The estimate from the two bit lengths is one too
small or exact. -/
def scaleOf (num den : Nat) : Int :=
  let estimate : Int := (num.log2 : Int) - den.log2 - f.precision
  let fits (scale : Int) : Bool :=
    if 0 ≤ scale then num < den * Nat.pow 2 (f.precision + scale.toNat)
    else num * Nat.pow 2 (-scale).toNat < den * Nat.pow 2 f.precision
  max f.minScale (if fits estimate then estimate else estimate + 1)

/-- The number of the format nearest to `± num / den`, ties going to the even significand. -/
def round (negative : Bool) (num den : Nat) : Binary :=
  if num = 0 then f.zero negative
  else
    let scale := f.scaleOf num den
    let m := roundScaled num den scale
    let (m, scale) :=
      if m = Nat.pow 2 f.precision then (Nat.pow 2 (f.precision - 1), scale + 1) else (m, scale)
    if f.maxScale < scale then .infinite negative else .finite negative m scale

/-- The number nearest to the decimal numeral `± digits · 10 ^ exponent`.  Powers of ten far
outside the format's range are not computed: such a numeral is infinite or zero. -/
def ofDecimal (negative : Bool) (digits : Nat) (exponent : Int) : Binary :=
  if digits = 0 then f.zero negative
  else
    let reach : Int := f.maxExponent + f.precision + 1
    let magnitude : Int := exponent + (digits.log2 : Int) / 4
    if reach < magnitude then .infinite negative
    else if exponent + (digits.log2 : Int) < -reach then f.zero negative
    else if 0 ≤ exponent then f.round negative (digits * Nat.pow 10 exponent.toNat) 1
    else f.round negative digits (Nat.pow 10 (-exponent).toNat)

/-- The number nearest to an integer. -/
def ofInt (i : Int) : Binary :=
  f.round (decide (i < 0)) i.natAbs 1

/-- The number of the format nearest to `± num / den · 2 ^ exponent`. -/
def roundShifted (negative : Bool) (num den : Nat) (exponent : Int) : Binary :=
  if 0 ≤ exponent then f.round negative (num * Nat.pow 2 exponent.toNat) den
  else f.round negative num (den * Nat.pow 2 (-exponent).toNat)

/-- The number of this format nearest to a number of another one. -/
def narrow : Binary → Binary
  | .finite negative m e => f.roundShifted negative m 1 e
  | .infinite negative => .infinite negative
  | .nan => .nan

/-! ## Products and quotients -/

/-- The product of two numbers. -/
def product : Binary → Binary → Binary
  | .finite a m e, .finite b n k => f.roundShifted (a != b) (m * n) 1 (e + k)
  | .nan, _ | _, .nan => .nan
  | .infinite a, .finite b n _ | .finite b n _, .infinite a =>
    if n = 0 then .nan else .infinite (a != b)
  | .infinite a, .infinite b => .infinite (a != b)

/-- The quotient of two numbers. -/
def quotient : Binary → Binary → Binary
  | .finite a m e, .finite b n k =>
    if n ≠ 0 then f.roundShifted (a != b) m n (e - k)
    else if m = 0 then .nan
    else .infinite (a != b)
  | .infinite a, .finite b _ _ => .infinite (a != b)
  | .finite a _ _, .infinite b => f.zero (a != b)
  | _, _ => .nan

/-- A power of ten. -/
def powerOfTen (exponent : Nat) : Binary := f.ofDecimal false 1 exponent

/-- The largest power of ten that is finite. -/
def maxPowerOfTen : Nat := (f.maxExponent + 1) * 30103 / 100000

/-- The product of an integer below `2 ^ 64` and a power of ten, computed with the format's own
product or quotient by its power of ten; one that is too small is divided twice.  The result is one
of the numbers around the exact product, and not always the nearest. -/
def scaleDecimal (negative : Bool) (significand : Nat) (exponent : Int) : Binary :=
  let x := f.round negative significand 1
  let largest := f.maxPowerOfTen
  if significand = 0 then x
  else if 0 ≤ exponent then
    if exponent ≤ largest then f.product x (f.powerOfTen exponent.toNat) else .infinite negative
  else
    let down := (-exponent).toNat
    if down ≤ largest then f.quotient x (f.powerOfTen down)
    else if down ≤ 2 * largest then
      f.quotient (f.quotient x (f.powerOfTen largest)) (f.powerOfTen (down - largest))
    else f.zero negative

end BinaryFormat

namespace Binary

/-- A number that is neither infinite nor undefined. -/
def isFinite : Binary → Bool
  | finite .. => true
  | _ => false

/-- `x` lies between zero and the integer `limit`, both included; the negative zero does too. -/
def within (limit : Nat) : Binary → Bool
  | finite negative m e =>
    m == 0 || (!negative &&
      (if 0 ≤ e then decide (m * Nat.pow 2 e.toNat ≤ limit)
       else decide (m ≤ limit * Nat.pow 2 (-e).toNat)))
  | _ => false

end Binary

end AgentLoop
