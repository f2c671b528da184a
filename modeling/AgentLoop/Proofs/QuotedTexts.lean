import AgentLoop.Proofs.Readers
import AgentLoop.Toml.Quoted

/-!
# Quoted texts are read back

A text is written in the plainest form in which it needs no escapes, and whoever reads it tries the
forms in turn.  Each text and each key is read back, with any characters in it.

* `escaped_escape`, `basic_write` and `literal_write` are about texts on one line.
* `ReadsLong` says that a text between triple quotes is read back piece by piece, with up to two
  quotes at its end left to the closing ones.  `readsLong_longBody` and `readsLong_self` show it for
  both kinds of quotes; runs of characters and pairs of quotes are pieces.
* `TextForm.Suits` says when a text can be written in a form, and `TextForm.suits_choose` that the
  form that is chosen suits.  `any_write` is the result for texts.
* `short_or_run_writeKey` is the result for keys.
-/

namespace AgentLoop

namespace Quoted

open Reader hiding some

variable {c : Char} {cs rest : List Char}

/-! ## Characters -/

/-- A character that does not stand as it is between double quotes on one line. -/
def Escaped (c : Char) : Prop :=
  c = '"' ∨ c = '\\' ∨ c = '\t' ∨ c = '\n' ∨ needsEscape c = true

instance : Decidable (Escaped c) := inferInstanceAs (Decidable (_ ∨ _))

theorem shortChar_of_escaped (h : Escaped c) : shortChar c = escape c := by
  rw [shortChar, if_pos (by simpa [Escaped, or_assoc] using h)]

theorem shortChar_of_not_escaped (h : ¬ Escaped c) : shortChar c = [c] := by
  rw [shortChar, if_neg (by simpa [Escaped, or_assoc] using h)]

theorem isBasic_of_not_escaped (h : ¬ Escaped c) : isBasic c = true := by
  simp only [Escaped, not_or, needsEscape, Bool.or_eq_true, Bool.and_eq_true, decide_eq_true_eq,
    bne_iff_ne, beq_iff_eq] at h
  obtain ⟨hquote, hbackslash, htab, hnewline, hcontrol, hdelete⟩ := h
  have hnumber : c.toNat ≠ 0x7f := fun h => hdelete (Char.toNat_inj.1 h)
  have hlarge : 0x20 ≤ c.toNat := Nat.not_lt.1 fun h => hcontrol ⟨⟨h, htab⟩, hnewline⟩
  simp [isBasic, isPlain, hquote, hbackslash, hnumber, hlarge]

theorem toNat_lt_of_escaped (h : Escaped c) : c.toNat < 0x80 := by
  rcases h with rfl | rfl | rfl | rfl | h
  iterate 4 decide
  simp only [needsEscape, Bool.or_eq_true, Bool.and_eq_true, decide_eq_true_eq, beq_iff_eq] at h
  rcases h with h | rfl
  · omega
  · decide

theorem newline_of_ne (hnewline : c ≠ '\n') (hreturn : c ≠ '\r') (cs : List Char) :
    newline (c :: cs) = none := by
  rw [newline, bind_of_eq_some (possible_of_eq_none (the_of_ne hreturn)),
    bind_of_eq_none (the_of_ne hnewline)]

/-- A backslash, and a letter behind it. -/
theorem exists_escape (c : Char) : ∃ d ds, escape c = '\\' :: d :: ds ∧
    d ≠ ' ' ∧ d ≠ '\t' ∧ d ≠ '\n' ∧ d ≠ '\r' := by
  unfold escape
  split <;> exact ⟨_, _, rfl, by decide⟩

theorem hexValue_upperHexDigit : ∀ n < 16,
    isHexDigit (upperHexDigit n) = true ∧ hexValue (upperHexDigit n) = n := by
  decide

theorem numbered_hex {high low : Nat} (hhigh : high < 8) (hlow : low < 16) (rest : List Char) :
    numbered 4 ('0' :: '0' :: upperHexDigit high :: upperHexDigit low :: rest) =
      some (Char.ofNat (high * 16 + low), rest) := by
  obtain ⟨hhighDigit, hhighValue⟩ := hexValue_upperHexDigit high (by omega)
  obtain ⟨hlowDigit, hlowValue⟩ := hexValue_upperHexDigit low hlow
  have hzero : isHexDigit '0' = true ∧ hexValue '0' = 0 := ⟨rfl, rfl⟩
  have hdigits : ∀ d ∈ ['0', '0', upperHexDigit high, upperHexDigit low], isHexDigit d = true := by
    simp [hzero, hhighDigit, hlowDigit]
  have hread : exactly isHexDigit 4
      ('0' :: '0' :: upperHexDigit high :: upperHexDigit low :: rest) =
        some (['0', '0', upperHexDigit high, upperHexDigit low], rest) :=
    exactly_append hdigits
  have hvalue : valueIn 16 ['0', '0', upperHexDigit high, upperHexDigit low] = high * 16 + low := by
    simp [valueIn, hzero, hhighValue, hlowValue]
  have hvalid : (high * 16 + low).isValidChar := .inl (by omega)
  rw [numbered, bind_of_eq_some hread, hvalue, if_pos hvalid, pure_apply]

/-- An escape is read as the character that was escaped. -/
theorem escaped_escape (h : Escaped c) (rest : List Char) :
    escaped (escape c ++ rest) = some (c, rest) := by
  have hsmall := toNat_lt_of_escaped h
  unfold escape
  split
  case h_8 =>
    have hhigh : c.toNat / 16 < 8 := by omega
    have hlow : c.toNat % 16 < 16 := by omega
    have hread := numbered_hex hhigh hlow rest
    rw [Nat.div_add_mod', Char.ofNat_toNat] at hread
    exact hread
  all_goals rfl

/-! ## Texts on one line -/

theorem one_or_escaped_shortChar (c : Char) (rest : List Char) :
    (one isBasic <|> escaped) (shortChar c ++ rest) = some (c, rest) := by
  by_cases h : Escaped c
  · rw [shortChar_of_escaped h, orElse_of_eq_none, escaped_escape h]
    obtain ⟨d, ds, hescape, -⟩ := exists_escape c
    rw [hescape]
    rfl
  · rw [shortChar_of_not_escaped h]
    exact orElse_of_eq_some (one_of_eq_true (isBasic_of_not_escaped h))

theorem exists_shortChar (c : Char) :
    ∃ d ds, shortChar c = d :: ds ∧ d ≠ '"' ∧ d ≠ '\n' ∧ d ≠ '\r' := by
  by_cases h : Escaped c
  · obtain ⟨d, ds, hescape, -⟩ := exists_escape c
    exact ⟨_, _, (shortChar_of_escaped h).trans hescape, by decide⟩
  · refine ⟨c, [], shortChar_of_not_escaped h, ?_, ?_, ?_⟩
    all_goals
      rintro rfl
      exact h (by decide)

theorem length_shortChar_pos (c : Char) : 0 < (shortChar c).length := by
  obtain ⟨d, ds, hchar, -⟩ := exists_shortChar c
  rw [hchar]
  exact Nat.succ_pos _

theorem many_flatMap_shortChar (cs rest : List Char) :
    many (one isBasic <|> escaped) (cs.flatMap shortChar ++ '"' :: rest) =
      some (cs, '"' :: rest) := by
  induction cs with
  | nil => exact many_of_eq_none rfl
  | cons c cs ih =>
    rw [List.flatMap_cons, List.append_assoc]
    refine many_of_eq_some (one_or_escaped_shortChar c _) ?_ ih
    have := length_shortChar_pos c
    simp only [List.length_append]
    omega

/-- A text between double quotes is read back. -/
theorem basic_write (cs rest : List Char) :
    basic (TextForm.basic.write cs ++ rest) = some (cs, rest) := by
  rw [TextForm.write, List.append_assoc, basic, List.cons_append, bind_of_eq_some the_self,
    List.singleton_append, bind_of_eq_some (many_flatMap_shortChar cs rest),
    bind_of_eq_some the_self, pure_apply]

/-- A text between single quotes is read back. -/
theorem literal_write (h : ∀ c ∈ cs, isLiteral c = true) (rest : List Char) :
    literal (TextForm.literal.write cs ++ rest) = some (cs, rest) := by
  rw [TextForm.write, List.append_assoc, literal, List.cons_append, bind_of_eq_some the_self,
    List.singleton_append, bind_of_eq_some (span_append h (ends_cons rfl)),
    bind_of_eq_some the_self, pure_apply]

/-! ## Texts over several lines -/

/-- Behind opening quotes and before closing ones, the characters `text` are read as `cs`, piece by
piece.  Up to two quotes at the end are left to the closing ones. -/
def ReadsLong (quote : Char) (p : Reader (List Char)) (text cs : List Char) : Prop :=
  ∀ rest, ∃ pieces, ∃ k ≤ 2, pieces.flatten ++ List.replicate k quote = cs ∧
    many (p <|> quotesInside quote) (text ++ quote :: quote :: quote :: rest) =
      some (pieces, List.replicate k quote ++ quote :: quote :: quote :: rest)

variable {quote : Char} {p : Reader (List Char)} {text cs' : List Char}

/-- One or two quotes with something else behind them belong to the text. -/
theorem quotesInside_replicate {k : Nat} (hk : 0 < k) (hk' : k ≤ 2) (hc : c ≠ quote) :
    quotesInside quote (List.replicate k quote ++ c :: rest) =
      some (List.replicate k quote, c :: rest) := by
  obtain rfl | rfl : k = 1 ∨ k = 2 := by omega
  · cases rest <;> simp [quotesInside, hc]
  · simp [quotesInside, hc]

/-- Quotes before the closing ones are no piece. -/
theorem readsLong_replicate {k : Nat} (hk : k ≤ 2) (hquote : ∀ cs, p (quote :: cs) = none) :
    ReadsLong quote p (List.replicate k quote) (List.replicate k quote) := by
  intro rest
  refine ⟨[], k, hk, rfl, many_of_eq_none ?_⟩
  obtain rfl | rfl | rfl : k = 0 ∨ k = 1 ∨ k = 2 := by omega
  all_goals
    refine (orElse_of_eq_none (hquote _)).trans ?_
    simp [quotesInside]

theorem ReadsLong.cons {piece : List Char} (h : ReadsLong quote p text cs) (hpos : 0 < cs'.length)
    (hpiece : ∀ rest,
      (p <|> quotesInside quote) (cs' ++ (text ++ quote :: quote :: quote :: rest)) =
        some (piece, text ++ quote :: quote :: quote :: rest)) :
    ReadsLong quote p (cs' ++ text) (piece ++ cs) := by
  intro rest
  obtain ⟨pieces, k, hk, rfl, hmany⟩ := h rest
  refine ⟨piece :: pieces, k, hk, by simp, ?_⟩
  rw [List.append_assoc]
  refine many_of_eq_some (hpiece rest) ?_ hmany
  simp only [List.length_append]
  omega

/-- Quotes with something else behind them. -/
theorem ReadsLong.quotes {k : Nat} (hk : 0 < k) (hk' : k ≤ 2) (hc : c ≠ quote)
    (hquote : ∀ cs, p (quote :: cs) = none) (h : ReadsLong quote p (c :: text) cs) :
    ReadsLong quote p (List.replicate k quote ++ c :: text) (List.replicate k quote ++ cs) := by
  refine h.cons (by simpa using hk) fun rest => ?_
  rw [orElse_of_eq_none]
  · exact quotesInside_replicate hk hk' hc
  · obtain ⟨k, rfl⟩ : ∃ n, k = n + 1 := ⟨k - 1, by omega⟩
    exact hquote _

/-- The closing quotes, with up to two more that belong to the text. -/
theorem closing_replicate {k : Nat} (hk : k ≤ 2) (hrest : Ends (· = quote) rest) :
    closing quote (List.replicate k quote ++ quote :: quote :: quote :: rest) =
      some (List.replicate k quote, rest) := by
  have hquotes : ∀ c ∈ List.replicate (k + 3) quote, decide (c = quote) = true := by
    simp
  have hspan : (List.replicate (k + 3) quote ++ rest).takeWhile (fun c => c = quote) =
      List.replicate (k + 3) quote :=
    congrArg (fun r => (r.getD ([], [])).1) (span_append hquotes hrest)
  have htext : List.replicate k quote ++ quote :: quote :: quote :: rest =
      List.replicate (k + 3) quote ++ rest := by
    rw [← List.replicate_append_replicate, List.append_assoc]
    rfl
  have hextra : min 2 (k + 3 - 3) = k := by omega
  have hall : min 5 (k + 3) = (List.replicate (k + 3) quote).length := by
    rw [List.length_replicate]
    omega
  rw [htext, closing, hspan, List.length_replicate, if_neg (by omega), hextra, hall,
    List.drop_left]

/-- A text between triple quotes is read back if it is read back piece by piece. -/
theorem ReadsLong.long (h : ReadsLong quote p text cs) {opening : List Char} {o : Option Char}
    (hopening : possible newline (opening ++ (text ++ quote :: quote :: quote :: rest)) =
      some (o, text ++ quote :: quote :: quote :: rest))
    (hrest : Ends (· = quote) rest) :
    long quote p ([quote, quote, quote] ++ (opening ++ (text ++ quote :: quote :: quote :: rest))) =
      some (cs, rest) := by
  obtain ⟨pieces, k, hk, hcs, hmany⟩ := h rest
  rw [Quoted.long, bind_of_eq_some (word_append _ _), bind_of_eq_some hopening,
    bind_of_eq_some hmany, bind_of_eq_some (closing_replicate hk hrest), pure_apply, hcs]

/-- A text that begins with a quote begins with some quotes in a row. -/
theorem exists_replicate (hc : c = quote) (cs : List Char) :
    ∃ k bs, 0 < k ∧ c :: cs = List.replicate k quote ++ bs ∧ ∀ d ∈ bs.head?, d ≠ quote := by
  obtain ⟨as, bs, hsplit, hne, has, hbs⟩ := exists_run (· = quote) (by simpa using hc) cs
  refine ⟨as.length, bs, List.length_pos_iff.2 hne, ?_, by simpa [Ends] using hbs⟩
  rw [hsplit, ← List.eq_replicate_of_mem (by simpa using has)]

/-! ### Between triple double quotes -/

/-- A piece of a text between triple double quotes, quotes apart. -/
def basicPiece : Reader (List Char) :=
  run isBasic <|> continued <|> piece escaped <|> piece newline

theorem basicPiece_quote (cs : List Char) : basicPiece ('"' :: cs) = none := rfl

theorem basicPiece_newline (cs : List Char) : basicPiece ('\n' :: cs) = some (['\n'], cs) := rfl

/-- A backslash with an escape behind it does not end a line. -/
theorem basicPiece_escape (h : Escaped c) (rest : List Char) :
    basicPiece (escape c ++ rest) = some ([c], rest) := by
  obtain ⟨d, ds, hescape, hspace, htab, hnewline, hreturn⟩ := exists_escape c
  have hspan : span isSpace (d :: ds ++ rest) = some ([], d :: ds ++ rest) :=
    span_of_ends (ends_cons (by simp [isSpace, hspace, htab]))
  have hline : newline (d :: ds ++ rest) = none := newline_of_ne hnewline hreturn _
  have hrun : run isBasic (escape c ++ rest) = none := by
    rw [hescape]
    rfl
  have hcontinued : continued (escape c ++ rest) = none := by
    rw [hescape, List.cons_append, continued, bind_of_eq_some the_self, bind_of_eq_some hspan,
      bind_of_eq_none hline]
  have hpiece : piece escaped (escape c ++ rest) = some ([c], rest) := by
    rw [piece, bind_of_eq_some (escaped_escape h rest), pure_apply]
  rw [basicPiece, orElse_of_eq_none hrun, orElse_of_eq_none hcontinued, orElse_of_eq_some hpiece]

theorem longBody_of_ne (quotes : Nat) (h : c ≠ '"') (cs : List Char) :
    longBody quotes (c :: cs) = longBody 0 (c :: cs) := by
  simp [longBody, h]

theorem longBody_of_escaped (hquote : c ≠ '"') (hnewline : c ≠ '\n') (h : Escaped c)
    (cs : List Char) : longBody 0 (c :: cs) = escape c ++ longBody 0 cs := by
  simp [longBody, hquote, hnewline, shortChar_of_escaped h]

theorem longBody_append {cs : List Char} (h : ∀ c ∈ cs, ¬ Escaped c) (cs' : List Char) :
    longBody 0 (cs ++ cs') = cs ++ longBody 0 cs' := by
  induction cs with
  | nil => rfl
  | cons c cs ih =>
    rw [List.forall_mem_cons] at h
    have hquote : c ≠ '"' := fun hc => h.1 (.inl hc)
    have hnewline : c ≠ '\n' := fun hc => h.1 (.inr (.inr (.inr (.inl hc))))
    rw [List.cons_append, longBody, if_neg hquote, if_neg hnewline, shortChar_of_not_escaped h.1,
      ih h.2]
    rfl

/-- What is written for a character that is escaped, or for a line break, is not a quote and does
not go on a run. -/
theorem exists_longBody (h : c ≠ '"') (cs : List Char) :
    ∃ d ds, longBody 0 (c :: cs) = d :: ds ∧ d ≠ '"' ∧ (Escaped c → isBasic d = false) := by
  by_cases hnewline : c = '\n'
  · subst hnewline
    exact ⟨_, _, rfl, by decide, fun _ => rfl⟩
  · by_cases hescaped : Escaped c
    · obtain ⟨d, ds, hescape, -⟩ := exists_escape c
      rw [longBody_of_escaped h hnewline hescaped, hescape]
      exact ⟨_, _, rfl, by decide, fun _ => rfl⟩
    · refine ⟨c, longBody 0 cs, ?_, h, fun h => absurd h hescaped⟩
      simp [longBody, h, hnewline, shortChar_of_not_escaped hescaped]

/-- The written text ends a run before a character that is not part of it. -/
theorem ends_longBody (h : ∀ c ∈ cs.head?, Escaped c) (rest : List Char) :
    Ends isBasic (longBody 0 cs ++ '"' :: rest) := by
  cases cs with
  | nil => exact ends_cons rfl
  | cons c cs =>
    by_cases hquote : c = '"'
    · subst hquote
      exact ends_cons rfl
    · obtain ⟨d, ds, hbody, -, hd⟩ := exists_longBody hquote cs
      rw [hbody]
      exact ends_cons (hd (h c rfl))

theorem longBody_quotes {k : Nat} (hk : k ≤ 2) (cs : List Char) :
    longBody 0 (List.replicate k '"' ++ cs) = List.replicate k '"' ++ longBody k cs := by
  obtain rfl | rfl | rfl : k = 0 ∨ k = 1 ∨ k = 2 := by omega
  all_goals rfl

theorem ReadsLong.newline (h : ReadsLong '"' basicPiece text cs) :
    ReadsLong '"' basicPiece ('\n' :: text) ('\n' :: cs) := by
  show ReadsLong '"' basicPiece (['\n'] ++ text) (['\n'] ++ cs)
  exact h.cons Nat.one_pos fun rest => orElse_of_eq_some (basicPiece_newline _)

theorem ReadsLong.escape (h : ReadsLong '"' basicPiece text cs) (hc : Escaped c) :
    ReadsLong '"' basicPiece (Quoted.escape c ++ text) (c :: cs) := by
  refine h.cons ?_ fun rest => orElse_of_eq_some (basicPiece_escape hc _)
  obtain ⟨d, ds, hescape, -⟩ := exists_escape c
  rw [hescape]
  exact Nat.succ_pos _

theorem ReadsLong.run (h : ReadsLong '"' basicPiece (longBody 0 cs) cs) {as : List Char}
    (hne : as ≠ []) (has : ∀ c ∈ as, ¬ Escaped c) (hcs : ∀ c ∈ cs.head?, Escaped c) :
    ReadsLong '"' basicPiece (longBody 0 (as ++ cs)) (as ++ cs) := by
  rw [longBody_append has]
  refine h.cons (List.length_pos_iff.2 hne) fun rest => orElse_of_eq_some (orElse_of_eq_some ?_)
  exact run_append hne (fun c hc => isBasic_of_not_escaped (has c hc)) (ends_longBody hcs _)

/-- A text that begins with some quotes in a row is read back if all that is left of it behind the
first ones is. -/
theorem readsLong_quotes {k : Nat} {bs : List Char} (hk : 0 < k) (hbs : ∀ d ∈ bs.head?, d ≠ '"')
    (hshorter : ∀ as cs, List.replicate k '"' ++ bs = as ++ cs → as ≠ [] →
      ReadsLong '"' basicPiece (longBody 0 cs) cs) :
    ReadsLong '"' basicPiece (longBody 0 (List.replicate k '"' ++ bs))
      (List.replicate k '"' ++ bs) := by
  by_cases hmore : 2 < k
  · -- The third quote in a row is escaped.
    obtain ⟨k, rfl⟩ : ∃ l, k = 2 + 1 + l := ⟨k - 3, by omega⟩
    rw [← List.replicate_append_replicate, ← List.replicate_append_replicate,
      List.append_assoc, List.append_assoc] at hshorter ⊢
    rw [longBody_quotes (by omega)]
    have hrest := (hshorter (List.replicate 2 '"' ++ List.replicate 1 '"') _
      (List.append_assoc ..).symm (by simp)).escape (c := '"') (.inl rfl)
    exact hrest.quotes (k := 2) (by omega) (by omega) (by decide) basicPiece_quote
  · rw [longBody_quotes (by omega)]
    rcases bs with _ | ⟨d, ds⟩
    · simpa [longBody] using readsLong_replicate (k := k) (by omega) basicPiece_quote
    · have hd : d ≠ '"' := hbs d rfl
      obtain ⟨e, es, hbody, he, -⟩ := exists_longBody hd ds
      have hrest := hshorter _ _ rfl (by simpa using hk.ne')
      rw [longBody_of_ne k hd]
      rw [hbody] at hrest ⊢
      exact hrest.quotes hk (by omega) he basicPiece_quote

/-- A text is read back from between triple double quotes.  The induction is on the length of the
text, because a run of characters and a pair of quotes are read at once. -/
theorem readsLong_longBody (cs : List Char) : ReadsLong '"' basicPiece (longBody 0 cs) cs := by
  induction hlength : cs.length using Nat.strongRecOn generalizing cs with
  | ind n ih =>
    subst hlength
    have hshorter : ∀ as bs, cs = as ++ bs → as ≠ [] →
        ReadsLong '"' basicPiece (longBody 0 bs) bs := by
      rintro as bs rfl hne
      have := List.length_pos_iff.2 hne
      exact ih bs.length (by rw [List.length_append]; omega) bs rfl
    rcases cs with _ | ⟨c, cs⟩
    · exact readsLong_replicate (k := 0) (by omega) basicPiece_quote
    by_cases hc : c = '"'
    · obtain ⟨k, bs, hk, hsplit, hbs⟩ := exists_replicate hc cs
      rw [hsplit] at hshorter ⊢
      exact readsLong_quotes hk hbs hshorter
    by_cases hnewline : c = '\n'
    · subst hnewline
      exact (hshorter ['\n'] cs rfl (by simp)).newline
    by_cases hescaped : Escaped c
    · rw [longBody_of_escaped hc hnewline hescaped]
      exact (hshorter [c] cs rfl (by simp)).escape hescaped
    · obtain ⟨as, bs, hsplit, hne, has, hbs⟩ :=
        exists_run (fun c => !decide (Escaped c)) (by simpa using hescaped) cs
      rw [hsplit]
      refine (hshorter as bs hsplit hne).run hne ?_ ?_
      · simpa using has
      · simpa [Ends] using hbs

/-! ### Between triple single quotes -/

theorem longestRun_mono (c : Char) (cs : List Char) {m n : Nat} (h : m ≤ n) :
    longestRun c m cs ≤ longestRun c n cs := by
  induction cs generalizing m n with
  | nil => exact h
  | cons d cs ih =>
    rw [longestRun, longestRun]
    split
    · exact ih (by omega)
    · omega

/-- What comes later has no longer run. -/
theorem longestRun_append (c : Char) (seen : Nat) (cs cs' : List Char) :
    longestRun c 0 cs' ≤ longestRun c seen (cs ++ cs') := by
  induction cs generalizing seen with
  | nil => exact longestRun_mono c cs' (Nat.zero_le _)
  | cons d cs ih =>
    rw [List.cons_append, longestRun]
    split
    · exact ih _
    · exact (ih 0).trans (Nat.le_max_right _ _)

theorem le_longestRun (c : Char) (seen k : Nat) (cs : List Char) :
    seen + k ≤ longestRun c seen (List.replicate k c ++ cs) := by
  induction k generalizing seen with
  | zero =>
    induction cs generalizing seen with
    | nil => exact Nat.le_refl _
    | cons d cs ih =>
      rw [List.replicate_zero, List.nil_append, longestRun]
      split
      · have := ih (seen + 1)
        simp only [List.replicate_zero, List.nil_append] at this
        omega
      · exact Nat.le_max_left _ _
  | succ k ih =>
    rw [List.replicate_succ, List.cons_append, longestRun, if_pos rfl]
    have := ih (seen + 1)
    omega

/-- A text without a run of the character does not have it. -/
theorem not_mem_of_longestRun {c : Char} {cs : List Char} (h : longestRun c 0 cs = 0) : c ∉ cs := by
  intro hmem
  obtain ⟨as, bs, rfl⟩ := List.append_of_mem hmem
  have hone : 1 ≤ longestRun c 0 (c :: bs) := by
    simpa using le_longestRun c 0 1 bs
  have := longestRun_append c 0 as (c :: bs)
  omega

/-- A piece of a text between triple single quotes, quotes apart. -/
def literalPiece : Reader (List Char) := run isLiteral <|> piece newline

theorem literalPiece_quote (cs : List Char) : literalPiece ('\'' :: cs) = none := rfl

theorem literalPiece_newline (cs : List Char) :
    literalPiece ('\n' :: cs) = some (['\n'], cs) := rfl

/-- A character that needs no escape may stand between single quotes, apart from a quote and a line
break. -/
theorem isLiteral_of (h : needsEscape c = false) (hnewline : c ≠ '\n') (hquote : c ≠ '\'') :
    isLiteral c = true := by
  simp only [needsEscape, Bool.or_eq_false_iff, Bool.and_eq_false_iff, decide_eq_false_iff_not,
    bne_eq_false_iff_eq, beq_eq_false_iff_ne] at h
  obtain ⟨hcontrol, hdelete⟩ := h
  have hnumber : c.toNat ≠ 0x7f := fun h => hdelete (Char.toNat_inj.1 h)
  rcases hcontrol with (hlarge | rfl) | rfl
  · simp [isLiteral, isPlain, hquote, hnumber, Nat.not_lt.1 hlarge]
  · rfl
  · exact absurd rfl hnewline

/-- A text is read back from between triple single quotes, if it holds no three of them in a row and
needs no escapes. -/
theorem readsLong_self {cs : List Char} (hplain : ∀ c ∈ cs, needsEscape c = false)
    (hquotes : longestRun '\'' 0 cs ≤ 2) : ReadsLong '\'' literalPiece cs cs := by
  induction hlength : cs.length using Nat.strongRecOn generalizing cs with
  | ind n ih =>
    subst hlength
    have hshorter : ∀ as bs, cs = as ++ bs → as ≠ [] → ReadsLong '\'' literalPiece bs bs := by
      rintro as bs rfl hne
      have := List.length_pos_iff.2 hne
      exact ih bs.length (by rw [List.length_append]; omega)
        (fun c hc => hplain c (List.mem_append_right _ hc))
        ((longestRun_append _ _ _ _).trans hquotes) rfl
    rcases cs with _ | ⟨c, cs⟩
    · exact readsLong_replicate (k := 0) (by omega) literalPiece_quote
    by_cases hc : c = '\''
    · obtain ⟨k, bs, hk, hsplit, hbs⟩ := exists_replicate hc cs
      rw [hsplit] at hshorter hquotes ⊢
      have hfew : k ≤ 2 := by
        have := le_longestRun '\'' 0 k bs
        omega
      rcases bs with _ | ⟨d, ds⟩
      · simpa using readsLong_replicate hfew literalPiece_quote
      · exact (hshorter _ _ rfl (by simpa using hk.ne')).quotes hk hfew (hbs d rfl)
          literalPiece_quote
    by_cases hnewline : c = '\n'
    · subst hnewline
      show ReadsLong '\'' literalPiece (['\n'] ++ cs) (['\n'] ++ cs)
      exact (hshorter ['\n'] cs rfl (by simp)).cons Nat.one_pos fun rest =>
        orElse_of_eq_some (literalPiece_newline _)
    · have hliteral := isLiteral_of (hplain c List.mem_cons_self) hnewline hc
      obtain ⟨as, bs, hsplit, hne, has, hbs⟩ := exists_run isLiteral hliteral cs
      rw [hsplit]
      refine (hshorter as bs hsplit hne).cons (List.length_pos_iff.2 hne) fun rest =>
        orElse_of_eq_some (orElse_of_eq_some (run_append hne has ?_))
      cases bs with
      | nil => exact ends_cons rfl
      | cons b bs => exact ends_cons (hbs b rfl)

/-! ## Texts of any form -/

/-- The line break behind the opening quotes does not count, and one that does is never the first
character behind them. -/
theorem exists_opening {quote : Char} (hquote : quote ≠ '\n' ∧ quote ≠ '\r')
    (htext : '\n' ∉ cs → ∀ c ∈ text.head?, c ≠ '\n' ∧ c ≠ '\r') (rest : List Char) :
    ∃ o, possible newline
      (TextForm.write.opening cs ++ (text ++ quote :: quote :: quote :: rest)) =
        some (o, text ++ quote :: quote :: quote :: rest) := by
  rw [TextForm.write.opening]
  split
  · exact ⟨some '\n', rfl⟩
  · next h =>
    refine ⟨none, possible_of_eq_none ?_⟩
    cases text with
    | nil => exact newline_of_ne hquote.1 hquote.2 _
    | cons c text =>
      obtain ⟨hnewline, hreturn⟩ := htext (by simpa using h) c rfl
      exact newline_of_ne hnewline hreturn _

end Quoted

/-- The text can be written in the form. -/
def TextForm.Suits (cs : List Char) : TextForm → Prop
  | basic | longBasic => True
  | literal => ∀ c ∈ cs, Quoted.isLiteral c = true
  | longLiteral =>
    (∀ c ∈ cs, Quoted.needsEscape c = false) ∧ Quoted.longestRun '\'' 0 cs ≤ 2

theorem TextForm.suits_choose (cs : List Char) : (choose cs).Suits cs := by
  rw [choose]
  split_ifs with _ hliteral _ hlong
  · trivial
  · simp only [Bool.and_eq_true, Bool.not_eq_true', List.any_eq_false, Bool.not_eq_true,
      List.contains_eq_mem, decide_eq_false_iff_not, beq_iff_eq] at hliteral
    obtain ⟨⟨hplain, hline⟩, hquotes⟩ := hliteral
    have hquote := Quoted.not_mem_of_longestRun hquotes
    exact fun c hc => Quoted.isLiteral_of (hplain c hc) (fun h => hline (h ▸ hc))
      (fun h => hquote (h ▸ hc))
  · trivial
  · simpa only [Suits, Bool.and_eq_true, Bool.not_eq_true', List.any_eq_false, Bool.not_eq_true,
      decide_eq_true_eq] using hlong
  all_goals trivial

namespace Quoted

open Reader hiding some

variable {c quote : Char} {cs rest : List Char}

/-- Two quotes around a text on one line are not three quotes. -/
theorem long_of_ne (p : Reader (List Char)) (hcs : ∀ c ∈ cs.head?, c ≠ quote)
    (hrest : ∀ c ∈ rest.head?, c ≠ quote) :
    long quote p (quote :: cs ++ [quote] ++ rest) = none := by
  have hword : word [quote, quote, quote] (quote :: cs ++ [quote] ++ rest) = none := by
    cases cs with
    | cons c cs =>
      rw [word]
      exact (bind_of_eq_some the_self).trans (word_of_ne (hcs c rfl))
    | nil =>
      rw [word]
      refine (bind_of_eq_some the_self).trans ?_
      rw [word]
      exact (bind_of_eq_some the_self).trans (word_of_ends (by simpa [Ends] using hrest))
  rw [long, bind_of_eq_none hword]

theorem longBasic_basic (hrest : ∀ c ∈ rest.head?, c ≠ '"') :
    longBasic (TextForm.basic.write cs ++ rest) = none := by
  refine long_of_ne _ ?_ hrest
  cases cs with
  | nil => simp
  | cons c cs =>
    obtain ⟨d, ds, hchar, hd, -⟩ := exists_shortChar c
    rw [List.flatMap_cons, hchar]
    rintro _ ⟨⟩
    exact hd

/-- The text between triple double quotes does not begin with a line break that would not count. -/
theorem head_longBody (h : '\n' ∉ cs) : ∀ c ∈ (longBody 0 cs).head?, c ≠ '\n' ∧ c ≠ '\r' := by
  cases cs with
  | nil => simp [longBody]
  | cons c cs =>
    rw [longBody]
    split_ifs with hquote hfew hnewline
    · simp
    · exact absurd Nat.two_pos hfew
    · exact absurd (hnewline ▸ List.mem_cons_self) h
    · obtain ⟨d, ds, hchar, -, hd⟩ := exists_shortChar c
      rw [hchar]
      rintro _ ⟨⟩
      exact hd

theorem any_of_suits {form : TextForm} (h : form.Suits cs)
    (hrest : ∀ c ∈ rest.head?, c ≠ '"' ∧ c ≠ '\'') :
    any (form.write cs ++ rest) = some (cs, rest) := by
  have hdouble : Ends (· = '"') rest := fun c hc => by simpa using (hrest c hc).1
  have hsingle : Ends (· = '\'') rest := fun c hc => by simpa using (hrest c hc).2
  cases form with
  | basic =>
    rw [any, orElse_of_eq_none (longBasic_basic fun c hc => (hrest c hc).1)]
    exact orElse_of_eq_some (basic_write cs rest)
  | literal =>
    have hquote : ∀ c ∈ cs.head?, c ≠ '\'' := fun c hc heq => by
      have := h c (List.mem_of_mem_head? hc)
      simp [heq, isLiteral] at this
    have hlong : longLiteral (TextForm.literal.write cs ++ rest) = none :=
      long_of_ne _ hquote fun c hc => (hrest c hc).2
    rw [any]
    refine (orElse_of_eq_none rfl).trans ((orElse_of_eq_none rfl).trans ?_)
    rw [orElse_of_eq_none hlong, literal_write h]
  | longBasic =>
    have hquote : '"' ≠ '\n' ∧ '"' ≠ '\r' := by decide
    obtain ⟨o, hopening⟩ := exists_opening hquote head_longBody rest
    have hread := (readsLong_longBody cs).long hopening hdouble
    rw [any, TextForm.write]
    simp only [List.append_assoc] at hread ⊢
    exact orElse_of_eq_some hread
  | longLiteral =>
    obtain ⟨hplain, hquotes⟩ := h
    have hhead : '\n' ∉ cs → ∀ c ∈ cs.head?, c ≠ '\n' ∧ c ≠ '\r' := by
      intro hnewline c hc
      have hmem := List.mem_of_mem_head? hc
      refine ⟨fun h => hnewline (h ▸ hmem), fun h => ?_⟩
      have := hplain c hmem
      simp [h, needsEscape] at this
    have hquote : '\'' ≠ '\n' ∧ '\'' ≠ '\r' := by decide
    obtain ⟨o, hopening⟩ := exists_opening hquote hhead rest
    have hread := (readsLong_self hplain hquotes).long hopening hsingle
    rw [any, TextForm.write]
    simp only [List.append_assoc] at hread ⊢
    refine (orElse_of_eq_none rfl).trans ((orElse_of_eq_none rfl).trans ?_)
    exact orElse_of_eq_some hread

/-- A text is read back. -/
theorem any_write (cs : List Char) (hrest : ∀ c ∈ rest.head?, c ≠ '"' ∧ c ≠ '\'') :
    any (write cs ++ rest) = some (cs, rest) :=
  any_of_suits (TextForm.suits_choose cs) hrest

/-! ## Keys -/

theorem short_basic (cs rest : List Char) :
    short (TextForm.basic.write cs ++ rest) = some (cs, rest) :=
  orElse_of_eq_some (basic_write cs rest)

theorem short_literal (h : ∀ c ∈ cs, isLiteral c = true) (rest : List Char) :
    short (TextForm.literal.write cs ++ rest) = some (cs, rest) :=
  (orElse_of_eq_none rfl).trans (literal_write h rest)

/-- A key that needs no quotes is not empty. -/
theorem exists_of_bare (h : (!cs.isEmpty && cs.all isBare) = true) :
    ∃ d ds, cs = d :: ds ∧ ∀ c ∈ d :: ds, isBare c = true := by
  simp only [Bool.and_eq_true, Bool.not_eq_true', List.isEmpty_eq_false_iff, List.all_eq_true] at h
  obtain ⟨d, ds, rfl⟩ := List.exists_cons_of_ne_nil h.1
  exact ⟨d, ds, rfl, h.2⟩

theorem short_of_bare {d : Char} (hd : isBare d = true) (cs : List Char) :
    short (d :: cs) = none := by
  have hne : ∀ quote, isBare quote = false → d ≠ quote := by
    rintro quote hquote rfl
    simp [hd] at hquote
  exact (orElse_of_eq_none (bind_of_eq_none (the_of_ne (hne '"' rfl)))).trans
    (bind_of_eq_none (the_of_ne (hne '\'' rfl)))

/-- A key is read back. -/
theorem short_or_run_writeKey (cs : List Char) (hrest : Ends isBare rest) :
    (short <|> run isBare) (writeKey cs ++ rest) = some (cs, rest) := by
  rw [writeKey]
  split_ifs with hbare _ hliteral
  · obtain ⟨d, ds, rfl, hchars⟩ := exists_of_bare hbare
    have hshort := short_of_bare (hchars d List.mem_cons_self) (ds ++ rest)
    exact (orElse_of_eq_none hshort).trans (run_append (List.cons_ne_nil _ _) hchars hrest)
  · exact orElse_of_eq_some (short_basic cs rest)
  · simp only [Bool.and_eq_true, Bool.not_eq_true', List.any_eq_false, Bool.not_eq_true,
      List.contains_eq_mem, decide_eq_false_iff_not] at hliteral
    obtain ⟨⟨hplain, hline⟩, hquote⟩ := hliteral
    exact orElse_of_eq_some (short_literal (fun c hc => isLiteral_of (hplain c hc)
      (fun h => hline (h ▸ hc)) (fun h => hquote (h ▸ hc))) rest)
  · exact orElse_of_eq_some (short_basic cs rest)

/-- A character with which a key can begin. -/
def BeginsKey (c : Char) : Prop := isBare c = true ∨ c = '"' ∨ c = '\''

instance : Decidable (BeginsKey c) := inferInstanceAs (Decidable (_ ∨ _))

theorem BeginsKey.ne {d : Char} (hd : BeginsKey d) (hc : ¬ BeginsKey c) : d ≠ c :=
  fun h => hc (h ▸ hd)

theorem exists_writeKey (cs : List Char) : ∃ d ds, writeKey cs = d :: ds ∧ BeginsKey d := by
  rw [writeKey]
  split_ifs with hbare
  · obtain ⟨d, ds, rfl, hchars⟩ := exists_of_bare hbare
    exact ⟨d, ds, rfl, .inl (hchars d List.mem_cons_self)⟩
  all_goals exact ⟨_, _, rfl, by decide⟩

end Quoted

end AgentLoop
