import AgentLoop.Text.Blank
import AgentLoop.Time.Calendar
import AgentLoop.Time.Timestamp

/-!
# RFC 3339 timestamps

A timestamp is written in universal time as date, `T`, time and `Z`, with no fraction of a second
if it is zero and otherwise with three, six or nine digits, whichever are enough.  Reading accepts
any offset from universal time and is lenient about the form: single digits, blanks between the
parts, a blank in place of `T`, an offset without a colon.

* `Timestamp.write` is the written form.
* `Timestamp.read?` reads a text; date, time and offset must exist, and the day must lie within the
  bounds in universal time too.
-/

namespace AgentLoop.Timestamp

/-! ## Writing -/

/-- A number in decimal, filled up with zeros to a width. -/
def padded (width n : Nat) : List Char :=
  let digits := Nat.toDigits 10 n
  List.replicate (width - digits.length) '0' ++ digits

/-- The year: four digits, and a sign if these are not enough or the year is negative. -/
def yearChars (year : Int) : List Char :=
  if 0 ≤ year ∧ year ≤ 9999 then padded 4 year.toNat
  else (if year < 0 then '-' else '+') :: padded 4 year.natAbs

/-- The fraction of a second. -/
def fractionChars (nano : Nat) : List Char :=
  if nano = 0 then []
  else if nano % 1000000 = 0 then '.' :: padded 3 (nano / 1000000)
  else if nano % 1000 = 0 then '.' :: padded 6 (nano / 1000)
  else '.' :: padded 9 nano

/-- The written form of a timestamp. -/
def write (t : Timestamp) : String :=
  let date := Date.ofDays (t.second / secondsPerDay)
  let time := t.secondOfDay.toNat
  let leap := t.nano / nanosPerSecond
  String.ofList <|
    yearChars date.year ++ '-' :: padded 2 date.month ++ '-' :: padded 2 date.day ++
    'T' :: padded 2 (time / 3600) ++ ':' :: padded 2 (time / 60 % 60) ++
    ':' :: padded 2 (time % 60 + leap) ++ fractionChars (t.nano % nanosPerSecond) ++ ['Z']

/-! ## Reading -/

/-- The value of decimal digits. -/
def numberOf (digits : List Char) : Nat :=
  digits.foldl (fun n c => n * 10 + (c.toNat - '0'.toNat)) 0

/-- The first digits of a text, at most `width` of them and at least one. -/
def digits? (width : Nat) (cs : List Char) : Option (List Char × List Char) :=
  let digits := (cs.take width).takeWhile Char.isDigit
  if digits.isEmpty then none else some (digits, cs.drop digits.length)

/-- A number of at most `width` digits, blanks before it skipped. -/
def number? (width : Nat) (cs : List Char) : Option (Nat × List Char) :=
  (digits? width (Text.trimStart cs)).map fun (digits, rest) => (numberOf digits, rest)

/-- A year: four digits at most, any number of them after a sign. -/
def year? (cs : List Char) : Option (Int × List Char) :=
  match Text.trimStart cs with
  | '-' :: rest => (digits? rest.length rest).map fun (ds, rest) => (-(numberOf ds : Int), rest)
  | '+' :: rest => (digits? rest.length rest).map fun (ds, rest) => ((numberOf ds : Int), rest)
  | rest => (digits? 4 rest).map fun (ds, rest) => ((numberOf ds : Int), rest)

/-- A given character, blanks before it skipped. -/
def mark? (c : Char) (cs : List Char) : Option (List Char) :=
  match Text.trimStart cs with
  | d :: rest => if c = d then some rest else none
  | [] => none

/-- The nanoseconds of a fraction, if there is one; digits after the ninth are dropped. -/
def fraction? (cs : List Char) : Option (Nat × List Char) :=
  match cs with
  | '.' :: rest => do
    let (digits, rest) ← digits? 9 rest
    return (numberOf digits * Nat.pow 10 (9 - digits.length), rest.dropWhile Char.isDigit)
  | _ => some (0, cs)

/-- The offset from universal time in seconds. -/
def offset? (cs : List Char) : Option (Int × List Char) :=
  match Text.trimStart cs with
  | 'Z' :: rest | 'z' :: rest => some (0, rest)
  | u :: t :: c :: rest =>
    if [u, t, c].map Char.toUpper = ['U', 'T', 'C'] then some (0, rest)
    else
      let sign : Option Int :=
        if u = '+' then some 1 else if u = '-' || u = '\u2212' then some (-1) else none
      match sign with
      | none => none
      | some sign =>
        if t.isDigit && c.isDigit then
          let hours := numberOf [t, c]
          match rest.dropWhile fun c => c == ':' || Text.isBlank c with
          | m :: n :: rest =>
            if '0' ≤ m && m ≤ '5' && n.isDigit then
              some (sign * (hours * 3600 + numberOf [m, n] * 60 : Nat), rest)
            else none
          | _ => none
        else none
  | _ => none

/-- The first and the last day that a timestamp may lie on. -/
def firstDay : Date := ⟨-262143, 1, 1⟩

@[inherit_doc firstDay]
def lastDay : Date := ⟨262142, 12, 31⟩

/-- The day may have timestamps; days are counted from the first of January 1970. -/
def hasDay (days : Int) : Bool :=
  firstDay.days ≤ days && days ≤ lastDay.days

/-- The timestamp that a text denotes. -/
def read? (text : String) : Option Timestamp := do
  let (year, cs) ← year? text.toList
  let (month, cs) ← number? 2 (← mark? '-' cs)
  let (day, cs) ← number? 2 (← mark? '-' cs)
  let cs ←
    match cs with
    | 't' :: cs | 'T' :: cs | ' ' :: cs => some cs
    | _ => none
  let (hour, cs) ← number? 2 cs
  let (minute, cs) ← number? 2 (← mark? ':' cs)
  let (second, cs) ← number? 2 (← mark? ':' cs)
  let (nano, cs) ← fraction? cs
  let (offset, cs) ← offset? cs
  guard (Text.trimStart cs).isEmpty
  let date : Date := ⟨year, month, day⟩
  guard (date.isValid && hasDay date.days && decide (hour < 24) && decide (minute < 60) &&
    decide (second ≤ 60) && decide (offset.natAbs < secondsPerDay))
  let inPlace : Int := date.days * secondsPerDay + (hour * 3600 + minute * 60 + min second 59 : Nat)
  guard (hasDay ((inPlace - offset) / secondsPerDay))
  return ⟨inPlace - offset, nano + if second = 60 then nanosPerSecond else 0⟩

end AgentLoop.Timestamp
