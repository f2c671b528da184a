/-!
# Integers in decimal digits

* `readDigits?` reads digits, of which there must be at least one.
* `readUnsigned?` allows a plus sign in front of them, `readSigned?` either sign.
-/

namespace AgentLoop

/-- The number that decimal digits denote. -/
def readDigits? (digits : List Char) : Option Nat :=
  if digits.isEmpty || !digits.all Char.isDigit then none
  else some (Nat.ofDigitChars 10 digits 0)

/-- The number that digits denote, after at most one plus sign. -/
def readUnsigned? (text : String) : Option Nat :=
  match text.toList with
  | '+' :: digits => readDigits? digits
  | digits => readDigits? digits

/-- The number that digits denote, after at most one sign. -/
def readSigned? (text : String) : Option Int :=
  match text.toList with
  | '-' :: digits => (readDigits? digits).map fun n => -(n : Int)
  | _ => (readUnsigned? text).map Int.ofNat

end AgentLoop
