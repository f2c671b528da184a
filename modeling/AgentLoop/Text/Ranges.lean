/-!
# Ranges of characters

A class of characters that a standard lists is a list of ranges of code points, and
`Text.inRanges` says whether a character is in one of them.
-/

namespace AgentLoop.Text

/-- The character is in one of the ranges, which are given by their first and last code points. -/
def inRanges (ranges : List (Nat × Nat)) (c : Char) : Bool :=
  ranges.any fun (first, last) => first ≤ c.toNat && c.toNat ≤ last

end AgentLoop.Text
