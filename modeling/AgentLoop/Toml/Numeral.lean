import AgentLoop.Time.Calendar
import AgentLoop.Toml.Basic
import AgentLoop.Toml.Quoted

/-!
# Numbers, dates and times in TOML

* `Toml.Numeral.integer` reads an integer: decimal with a sign, or hexadecimal, octal or binary without
  one.  Single underscores may stand between digits.
* `Toml.Numeral.float` reads a number with a fraction or an exponent, an infinity or `nan`.
* `Toml.Numeral.dateTime` reads a date, a time, or both with an offset from universal time or without.
-/

namespace AgentLoop.Toml.Numeral

/-! ## Integers -/

/-- Digits of a class with single underscores between them, which are left out. -/
def digits (ok : Char → Bool) : Reader (List Char) := do
  let c ← Reader.one ok
  let cs ← Reader.many (Reader.one ok <|> (do
    Reader.the '_'
    Reader.one ok))
  return c :: cs

/-- A sign; `true` is the minus sign. -/
def sign : Reader Bool := do
  match ← Reader.possible (Reader.one fun c => c == '+' || c == '-') with
  | some c => return c == '-'
  | none => return false

/-- The digits of a decimal integer: a zero, or digits that do not begin with one. -/
def decimalDigits : Reader (List Char) := do
  match ← Reader.peek with
  | some '0' => do
    Reader.the '0'
    return ['0']
  | _ => digits Char.isDigit

/-- An integer that TOML can hold. -/
def inRange (i : Int) : Reader Toml :=
  if Toml.inRange i then return .integer i else failure

/-- A decimal integer. -/
def decimal : Reader Toml := do
  let negative ← sign
  let n : Int := Quoted.valueIn 10 (← decimalDigits)
  inRange (if negative then -n else n)

/-- An integer in another base, marked by a letter. -/
def based (letter : Char) (base : Nat) (ok : Char → Bool) : Reader Toml := do
  Reader.word ['0', letter]
  inRange (Quoted.valueIn base (← digits ok))

/-- An integer. -/
def integer : Reader Toml :=
  based 'x' 16 Quoted.isHexDigit <|>
    based 'o' 8 (fun c => '0' ≤ c && c ≤ '7') <|>
    based 'b' 2 (fun c => c == '0' || c == '1') <|> decimal

/-! ## Numbers with a fraction or an exponent -/

/-- The digits of a fraction. -/
def fraction : Reader (List Char) := do
  Reader.the '.'
  digits Char.isDigit

/-- An exponent. -/
def exponent : Reader Int := do
  let _ ← Reader.one fun c => c == 'e' || c == 'E'
  let negative ← sign
  let n : Int := Quoted.valueIn 10 (← digits Char.isDigit)
  return if negative then -n else n

/-- A number with a fraction, an exponent, or both.  One that is larger than all finite numbers is
refused; its negative is not. -/
def scaled : Reader Toml := do
  let negative ← sign
  let whole ← decimalDigits
  let (places, power) ←
    (do
      let power ← exponent
      return ([], power)) <|>
    (do
      let places ← fraction
      let power ← Reader.possible exponent
      return (places, power.getD 0))
  let x := binary64.ofDecimal negative (Quoted.valueIn 10 (whole ++ places)) (power - places.length)
  if x = .infinite false then failure else return .float x

/-- An infinity or `nan`. -/
def special : Reader Toml := do
  let negative ← sign
  (do
    Reader.word ['i', 'n', 'f']
    return .float (.infinite negative)) <|>
  (do
    Reader.word ['n', 'a', 'n']
    return .float .nan)

/-- A number that is not an integer. -/
def float : Reader Toml := scaled <|> special

/-! ## Dates and times -/

/-- A number of exactly so many digits, within bounds. -/
def field (width low high : Nat) : Reader Nat := do
  let n := Quoted.valueIn 10 (← Reader.exactly Char.isDigit width)
  if low ≤ n && n ≤ high then return n else failure

/-- A date that the calendar has. -/
def date : Reader Unit := do
  let year ← field 4 0 9999
  Reader.the '-'
  let month ← field 2 1 12
  Reader.the '-'
  let day ← field 2 1 31
  if (⟨year, month, day⟩ : Date).isValid then return () else failure

/-- A time of the day. -/
def time : Reader Unit := do
  let _ ← field 2 0 23
  Reader.the ':'
  let _ ← field 2 0 59
  Reader.the ':'
  let _ ← field 2 0 60
  let _ ← Reader.possible (do
    Reader.the '.'
    Reader.run Char.isDigit)
  return ()

/-- An offset from universal time. -/
def offset : Reader Unit :=
  (do
    let _ ← Reader.one fun c => c == 'Z' || c == 'z'
    return ()) <|>
  (do
    let _ ← Reader.one fun c => c == '+' || c == '-'
    let _ ← field 2 0 23
    Reader.the ':'
    let _ ← field 2 0 59
    return ())

/-- A date, with a time if one follows. -/
def datePossiblyTime : Reader Unit := do
  date
  let _ ← Reader.possible (do
    let _ ← Reader.one fun c => c == 'T' || c == 't' || c == ' '
    time
    let _ ← Reader.possible offset
    return ())
  return ()

/-- A date, a time, or both. -/
def dateTime : Reader Toml := do
  let cs ← Reader.taken (datePossiblyTime <|> time)
  return .dateTime (String.ofList cs)

end AgentLoop.Toml.Numeral
