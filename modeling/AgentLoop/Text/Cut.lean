/-!
# Cutting a text at a mark

`cut? mark cs` finds the first occurrence of a mark in a list of characters and gives what stands
before it and what stands after it.

* `eq_of_cut?`: nothing but the mark is lost.
* `cut?_eq_none_iff`: the cut fails exactly when the mark occurs nowhere.
-/

namespace AgentLoop.Text

/-- What stands before and after the first occurrence of the mark. -/
def cut? (mark : List Char) : List Char → Option (List Char × List Char)
  | [] => if mark = [] then some ([], []) else none
  | c :: cs =>
    if mark <+: (c :: cs) then some ([], (c :: cs).drop mark.length)
    else (cut? mark cs).map fun (before, after) => (c :: before, after)

theorem eq_of_cut? {mark cs before after : List Char} (h : cut? mark cs = some (before, after)) :
    cs = before ++ mark ++ after := by
  induction cs generalizing before after with
  | nil =>
    simp only [cut?] at h
    split at h <;> simp_all
  | cons c cs ih =>
    simp only [cut?] at h
    split at h
    · next hp =>
      obtain ⟨rest, hr⟩ := hp
      simp only [Option.some.injEq, Prod.mk.injEq] at h
      obtain ⟨rfl, rfl⟩ := h
      simp [← hr]
    · obtain ⟨⟨b, a⟩, hb, he⟩ := Option.map_eq_some_iff.1 h
      simp only [Prod.mk.injEq] at he
      obtain ⟨rfl, rfl⟩ := he
      simp [ih hb]

theorem cut?_eq_none_iff {mark cs : List Char} : cut? mark cs = none ↔ ¬ mark <:+: cs := by
  induction cs with
  | nil => by_cases h : mark = [] <;> simp [cut?, h]
  | cons c cs ih =>
    simp only [cut?]
    split
    · next hp => simpa using hp.isInfix
    · next hp => rw [Option.map_eq_none_iff, ih, List.infix_cons_iff]; simp [hp]

end AgentLoop.Text
