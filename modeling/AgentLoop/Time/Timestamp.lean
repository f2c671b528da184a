/-!
# Points in time

A timestamp is a point of universal time with nanoseconds.  Within a leap second the nanoseconds
run on beyond one thousand million, so that the second before it keeps its number.

* `Timestamp` counts seconds from the beginning of 1970.
* `Timestamp.addMillis` moves forward, `Timestamp.millisTo` measures the way to a later point.
* `Timestamp.Valid` says that the nanoseconds are in range.
-/

namespace AgentLoop

/-- A point of universal time: seconds since the beginning of 1970, and nanoseconds, which are
below two thousand million and reach one thousand million only within a leap second. -/
structure Timestamp where
  second : Int
  nano : Nat
  deriving DecidableEq, Repr, Inhabited

namespace Timestamp

/-- Nanoseconds in a second. -/
def nanosPerSecond : Nat := 1000000000

/-- Seconds in a day. -/
def secondsPerDay : Nat := 86400

/-- The second of its day in which a point lies. -/
def secondOfDay (t : Timestamp) : Int := t.second % secondsPerDay

/-- The nanoseconds are in range, and only the last second of a minute is followed by a leap
second. -/
def Valid (t : Timestamp) : Prop :=
  t.nano < 2 * nanosPerSecond ∧ (nanosPerSecond ≤ t.nano → t.second % 60 = 59)

/-- The point some milliseconds after one outside a leap second. -/
def addMillis (t : Timestamp) (millis : Nat) : Timestamp :=
  let nanos := t.nano + millis * 1000000
  ⟨t.second + (nanos / nanosPerSecond : Nat), nanos % nanosPerSecond⟩

/-- The leap second that lies between two points without showing in their numbers: one that the
earlier point of a day is in. -/
def leapBetween (start stop : Timestamp) : Int :=
  if start.secondOfDay < stop.secondOfDay then
    if nanosPerSecond ≤ start.nano then 1 else 0
  else if stop.secondOfDay < start.secondOfDay then
    if nanosPerSecond ≤ stop.nano then -1 else 0
  else 0

/-- The whole milliseconds from one point to another, none if the other comes first. -/
def millisTo (start stop : Timestamp) : Nat :=
  let seconds := stop.second - start.second + leapBetween start stop
  let nanos : Int := seconds * nanosPerSecond + (stop.nano - start.nano)
  (nanos / 1000000).toNat

/-- Time that a clock shows as passed is the time that has passed. -/
theorem millisTo_addMillis (t : Timestamp) (m : Nat) (h : t.nano < nanosPerSecond) :
    t.millisTo (t.addMillis m) = m := by
  have hs : ¬ nanosPerSecond ≤ t.nano := by omega
  have hn : ¬ nanosPerSecond ≤ (t.addMillis m).nano := by
    simp only [addMillis, nanosPerSecond]; omega
  have hl : leapBetween t (t.addMillis m) = 0 := by
    simp [leapBetween, hs, hn]
  rw [millisTo, hl]
  simp only [addMillis, nanosPerSecond, Int.cast_ofNat_Int] at h ⊢
  omega

end Timestamp

end AgentLoop
