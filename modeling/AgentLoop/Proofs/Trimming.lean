import AgentLoop.Text.Blank
import AgentLoop.Text.Cut
import Mathlib.Data.List.TakeWhile

/-!
# Trimming and cutting

What trimming leaves of a text, and where a text is cut.

* `trimEnd_append_cons` and `trimChars_append_cons`: a character that is not blank is kept, with all
  that stands between it and another one.  `exists_blanks`: only blank characters are removed.
* `trimChars_of_sober` and `trimChars_around` are two texts that trimming leaves as they should be.
* `cut?_append`: where a text is cut does not depend on what comes behind the mark.
* `cut?_singleton` and `cut?_replicate` say where a text is cut at a mark that was put behind
  characters without it.  If the mark repeats one character, the cut may come before its place.
-/

namespace AgentLoop.Text

/-! ## Trimming -/

variable {c : Char}

/-- A character that is not blank is kept, with all before it. -/
theorem trimEnd_append_cons (hc : isBlank c = false) (cs ds : List Char) :
    trimEnd (cs ++ c :: ds) = cs ++ c :: trimEnd ds := by
  induction cs with
  | nil =>
    rw [List.nil_append, trimEnd]
    split
    · next hds => simp [hc, hds]
    · rfl
  | cons d cs ih =>
    rw [List.cons_append, trimEnd, ih]
    cases cs <;> rfl

/-- Only blank characters are removed at the end. -/
theorem exists_blanks (cs : List Char) :
    ∃ blanks, cs = trimEnd cs ++ blanks ∧ ∀ c ∈ blanks, isBlank c = true := by
  induction cs with
  | nil => exact ⟨[], rfl, by simp⟩
  | cons c cs ih =>
    obtain ⟨blanks, hcs, hblanks⟩ := ih
    rw [trimEnd]
    split
    · next hnil =>
      rw [hnil, List.nil_append] at hcs
      split
      · next hc => exact ⟨c :: cs, rfl, by simpa [hc, hcs] using hblanks⟩
      · exact ⟨blanks, by rw [hcs]; rfl, hblanks⟩
    · exact ⟨blanks, by rw [List.cons_append, ← hcs], hblanks⟩

theorem trimStart_cons (hc : isBlank c = false) (cs : List Char) :
    trimStart (c :: cs) = c :: cs := by
  rw [trimStart, List.dropWhile_cons_of_neg (by simp [hc])]

theorem trimChars_cons (hc : isBlank c = false) (cs : List Char) :
    trimChars (c :: cs) = c :: trimEnd cs := by
  rw [trimChars, trimStart_cons hc]
  exact trimEnd_append_cons hc [] cs

/-- Behind a character that is not blank nothing is removed at the beginning. -/
theorem trimStart_append {cs : List Char} (hcs : ∃ b ∈ cs, isBlank b = false) (ds : List Char) :
    trimStart (cs ++ ds) = trimStart cs ++ ds := by
  have hkept : ¬ (cs.dropWhile isBlank).isEmpty = true := by
    simpa [List.isEmpty_iff, List.dropWhile_eq_nil_iff] using hcs
  rw [trimStart, List.dropWhile_append, if_neg hkept, trimStart]

/-- What stands between two characters that are not blank is kept. -/
theorem trimChars_append_cons (hc : isBlank c = false) {cs : List Char}
    (hcs : ∃ b ∈ cs, isBlank b = false) (ds : List Char) :
    trimChars (cs ++ c :: ds) = trimStart cs ++ c :: trimEnd ds := by
  rw [trimChars, trimStart_append hcs]
  exact trimEnd_append_cons hc _ ds

theorem isBlank_of_isDigit (h : c.isDigit = true) : isBlank c = false := by
  simp only [Char.isDigit, Bool.and_eq_true, decide_eq_true_eq, ge_iff_le,
    UInt32.le_iff_toNat_le] at h
  have hlow : 48 ≤ c.toNat := h.1
  have hhigh : c.toNat ≤ 57 := h.2
  simp only [isBlank, Bool.or_eq_false_iff, Bool.and_eq_false_iff, decide_eq_false_iff_not,
    beq_eq_false_iff_ne]
  omega

/-- Blanks at the beginning are removed. -/
theorem trimStart_blanks {cs : List Char} (h : ∀ c ∈ cs, isBlank c = true) (ds : List Char) :
    trimStart (cs ++ ds) = trimStart ds :=
  List.dropWhile_append_of_pos h

theorem trimEnd_of_sober {cs : List Char} (h : ∀ c ∈ cs, isBlank c = false) :
    trimEnd cs = cs := by
  induction cs with
  | nil => rfl
  | cons c cs ih =>
    have hcs := trimEnd_append_cons (h c List.mem_cons_self) [] cs
    rwa [ih fun d hd => h d (List.mem_cons_of_mem _ hd)] at hcs

/-- A text without blanks is kept. -/
theorem trimChars_of_sober {cs : List Char} (h : ∀ c ∈ cs, isBlank c = false) :
    trimChars cs = cs := by
  cases cs with
  | nil => rfl
  | cons c cs =>
    rw [trimChars_cons (h c List.mem_cons_self),
      trimEnd_of_sober fun d hd => h d (List.mem_cons_of_mem _ hd)]

/-- What begins and ends with a character that is not blank is kept, whatever blanks stand around
it. -/
theorem trimChars_around {before after : List Char} {d : Char} (hc : isBlank c = false)
    (hd : isBlank d = false) (hbefore : ∀ b ∈ before, isBlank b = true)
    (hafter : ∀ b ∈ after, isBlank b = true) (cs : List Char) :
    trimChars (before ++ (c :: cs ++ [d]) ++ after) = c :: cs ++ [d] := by
  have hshape : before ++ (c :: cs ++ [d]) ++ after = (before ++ c :: cs) ++ d :: after := by simp
  rw [hshape, trimChars_append_cons hd ⟨c, by simp, hc⟩, trimStart_blanks hbefore,
    trimStart_cons hc, (trimEnd_eq_nil_iff after).2 hafter]

/-! ## Cutting -/

/-- A mark of one character. -/
theorem cut?_singleton {cs : List Char} (h : c ∉ cs) (ds : List Char) :
    cut? [c] (cs ++ c :: ds) = some (cs, ds) := by
  induction cs with
  | nil => simp [cut?]
  | cons d cs ih =>
    obtain ⟨hd, hcs⟩ := List.ne_and_not_mem_of_not_mem_cons h
    simp [cut?, hd, ih hcs]

/-- A mark at the beginning. -/
theorem cut?_mark (mark ds : List Char) : cut? mark (mark ++ ds) = some ([], ds) := by
  cases hcs : mark ++ ds with
  | nil =>
    obtain ⟨rfl, rfl⟩ := List.append_eq_nil_iff.1 hcs
    rfl
  | cons c cs => rw [cut?, ← hcs, if_pos (List.prefix_append mark ds), List.drop_left]

/-- The first occurrence of a mark does not depend on what comes behind. -/
theorem cut?_append {mark cs before after : List Char} (h : cut? mark cs = some (before, after))
    (ds : List Char) : cut? mark (cs ++ ds) = some (before, after ++ ds) := by
  induction cs generalizing before with
  | nil =>
    rw [cut?] at h
    split at h
    · next hmark =>
      subst hmark
      cases h
      cases ds <;> simp [cut?]
    · cases h
  | cons c cs ih =>
    rw [cut?] at h
    rw [List.cons_append, cut?]
    split at h
    · next hmark =>
      cases h
      rw [← List.cons_append, if_pos (hmark.trans (List.prefix_append (c :: cs) ds)),
        List.drop_append_of_le_length hmark.length_le]
    · next hmark =>
      obtain ⟨⟨b, a⟩, hcut, hpair⟩ := Option.map_eq_some_iff.1 h
      have hlength : mark.length ≤ (c :: cs).length := by
        rw [eq_of_cut? hcut]
        simp only [List.length_cons, List.length_append]
        omega
      have hlater : ¬ mark <+: c :: (cs ++ ds) := fun hprefix =>
        hmark (List.prefix_of_prefix_length_le hprefix (List.prefix_append (c :: cs) ds) hlength)
      cases hpair
      rw [if_neg hlater, ih hcut]
      rfl

/-- The first occurrence of a mark that repeats one character, behind characters without the mark,
takes in those of them at the end that belong to it. -/
theorem cut?_replicate {c : Char} {n : Nat} {cs : List Char}
    (h : ¬ List.replicate n c <:+: cs) (ds : List Char) :
    ∃ before k, cs = before ++ List.replicate k c ∧
      cut? (List.replicate n c) (cs ++ List.replicate n c ++ ds) =
        some (before, List.replicate k c ++ ds) := by
  induction cs with
  | nil => exact ⟨[], 0, rfl, cut?_mark (List.replicate n c) ds⟩
  | cons d cs ih =>
    by_cases hmark : List.replicate n c <+: d :: cs ++ List.replicate n c ++ ds
    · have hends : d :: cs <+: List.replicate n c := by
        have hbefore : d :: cs <+: d :: cs ++ (List.replicate n c ++ ds) := List.prefix_append ..
        rw [List.append_assoc] at hmark
        rcases List.prefix_or_prefix_of_prefix hmark hbefore with hle | hle
        · exact absurd hle.isInfix h
        · exact hle
      obtain ⟨hlength, hsame⟩ := List.prefix_replicate_iff.1 hends
      refine ⟨[], (d :: cs).length, hsame, ?_⟩
      have hswap : d :: cs ++ List.replicate n c ++ ds =
          List.replicate n c ++ (List.replicate (d :: cs).length c ++ ds) := by
        rw [hsame, List.length_replicate, List.replicate_append_replicate, Nat.add_comm,
          ← List.replicate_append_replicate, List.append_assoc]
      rw [hswap]
      exact cut?_mark (List.replicate n c) _
    · have hfound : ¬ List.replicate n c <:+: cs := fun hfound =>
        h (hfound.trans (List.suffix_cons d cs).isInfix)
      obtain ⟨before, k, hcs, hcut⟩ := ih hfound
      refine ⟨d :: before, k, by rw [List.cons_append, ← hcs], ?_⟩
      rw [List.cons_append, List.cons_append] at hmark ⊢
      rw [cut?, if_neg hmark, hcut]
      rfl

end AgentLoop.Text
