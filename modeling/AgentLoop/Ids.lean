/-!
# Ids

The ids that a program gives out are numbers of 128 bits, written as hexadecimal digits in five
groups.  Six of the bits are fixed and say that the others are random.

* `uuidText` writes a number as an id.
* `IdSupply.ofSeed` is a supply of ids from one random number.
-/

namespace AgentLoop

/-- The last digits of a number, in hexadecimal. -/
def hexDigits : (count : Nat) → Nat → List Char
  | 0, _ => []
  | count + 1, n => hexDigits count (n / 16) ++ [Nat.digitChar (n % 16)]

/-- The id made of a number: its thirteenth digit is 4, and of the four bits of its seventeenth
digit the first two are 1 and 0. -/
def uuidText (bits : Nat) : String :=
  let digits := hexDigits 32 bits
  let variant := Nat.digitChar (8 + bits / 0x1000000000000000 % 4)
  let digits := (digits.set 12 '4').set 16 variant
  "-".intercalate
    ([(0, 8), (8, 4), (12, 4), (16, 4), (20, 12)].map fun (start, length) =>
      String.ofList ((digits.drop start).take length))

/-- The ids that a program gives out, by number. -/
abbrev IdSupply := Nat → String

/-- A supply of ids from one random number: the numbers follow it in steps of an odd length, so
that none comes twice for a long time. -/
def IdSupply.ofSeed (seed : Nat) : IdSupply := fun n =>
  uuidText ((seed + n * 0x9e3779b97f4a7c15f39cc0605cedc835) % 0x100000000000000000000000000000000)

end AgentLoop
