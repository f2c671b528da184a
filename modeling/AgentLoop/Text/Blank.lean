/-!
# Blank characters

A character is blank when it has the Unicode property `White_Space`: twenty-five code points,
some of them outside ASCII.  Texts that come from a model or from an environment variable are
trimmed by this class before they are looked at, so a no-break space around an argument object
is dropped and a zero-width space (which lacks the property) is not.

* `isBlank` is the class, `trim` removes blank characters at both ends.
* `trimChars_eq_nil_iff`: nothing is left exactly when every character is blank.
-/

namespace AgentLoop.Text

/-- The code points of the Unicode property `White_Space`. -/
def isBlank (c : Char) : Bool :=
  let n := c.toNat
  (0x09 ≤ n && n ≤ 0x0D) || n == 0x20 || n == 0x85 || n == 0xA0 || n == 0x1680 ||
    (0x2000 ≤ n && n ≤ 0x200A) || n == 0x2028 || n == 0x2029 || n == 0x202F ||
    n == 0x205F || n == 0x3000

/-- The characters without the blank ones at the end. -/
def trimEnd : List Char → List Char
  | [] => []
  | c :: cs =>
    match trimEnd cs with
    | [] => if isBlank c then [] else [c]
    | kept => c :: kept

/-- The characters without the blank ones at the beginning. -/
def trimStart (cs : List Char) : List Char :=
  cs.dropWhile isBlank

/-- The characters without the blank ones at either end. -/
def trimChars (cs : List Char) : List Char :=
  trimEnd (trimStart cs)

/-- The text without the blank characters at either end. -/
def trim (s : String) : String :=
  String.ofList (trimChars s.toList)

/-- A text is blank when trimming leaves nothing of it. -/
def allBlank (s : String) : Bool :=
  s.toList.all isBlank

/-- Capital ASCII letters made small, every other character kept. -/
def lowerAscii (s : String) : String :=
  String.ofList (s.toList.map Char.toLower)

theorem trimEnd_eq_nil_iff (cs : List Char) : trimEnd cs = [] ↔ ∀ c ∈ cs, isBlank c = true := by
  induction cs with
  | nil => simp [trimEnd]
  | cons c cs ih =>
    cases h : trimEnd cs with
    | nil => by_cases hc : isBlank c <;> simp_all [trimEnd]
    | cons d ds => simp_all [trimEnd]

theorem trimChars_eq_nil_iff (cs : List Char) :
    trimChars cs = [] ↔ ∀ c ∈ cs, isBlank c = true := by
  rw [trimChars, trimEnd_eq_nil_iff, trimStart]
  induction cs with
  | nil => simp
  | cons c cs ih => by_cases hc : isBlank c <;> simp_all

end AgentLoop.Text
