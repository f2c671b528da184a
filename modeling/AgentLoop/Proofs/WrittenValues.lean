import AgentLoop.Proofs.Numerals
import AgentLoop.Proofs.QuotedTexts

/-!
# Values in TOML are read back

The readers of values are tried in turn: texts, truth values, dates, numbers with a point, integers,
and what stands between brackets.  Each text of a value is read by its own reader, and all readers
that are tried before refuse it.

* `Statement.scalar_write`, `scalar_bool`, `scalar_integer` and `scalar_float` are about values
  without brackets.
* `Statement.Solid` says that a character ends blanks; `gap_of_solid`, `gap_newline` and
  `gap_indent` are about the blanks in an array.
* `Toml.Legible` says that the text of a value is read back, whatever stands behind it.
  `Toml.legible_text`, `legible_integer`, … and `legible_array` say which values are legible.
-/

namespace AgentLoop

open Reader hiding some

variable {c : Char} {cs rest : List Char} {depth : Nat} {v : Toml} {items : List Toml}

namespace Statement

/-! ## Values without brackets -/

theorem text_of_ne (hdouble : c ≠ '"') (hsingle : c ≠ '\'') (cs : List Char) :
    text (c :: cs) = none := by
  have hlong : ∀ quote p, c ≠ quote → Quoted.long quote p (c :: cs) = none :=
    fun quote p h => bind_of_eq_none (word_of_ne h)
  have hbasic : Quoted.basic (c :: cs) = none := bind_of_eq_none (the_of_ne hdouble)
  have hliteral : Quoted.literal (c :: cs) = none := bind_of_eq_none (the_of_ne hsingle)
  refine bind_of_eq_none ?_
  rw [Quoted.any, Quoted.longBasic, Quoted.longLiteral, orElse_of_eq_none (hlong _ _ hdouble),
    orElse_of_eq_none hbasic, orElse_of_eq_none (hlong _ _ hsingle), hliteral]

theorem bool_of_ne (htrue : c ≠ 't') (hfalse : c ≠ 'f') (cs : List Char) :
    bool (c :: cs) = none :=
  (orElse_of_eq_none (bind_of_eq_none (word_of_ne htrue))).trans
    (bind_of_eq_none (word_of_ne hfalse))

theorem scalar_write (s : String) (hrest : Toml.Delimited rest) :
    scalar (Quoted.write s.toList ++ rest) = some (.text s, rest) := by
  have hquotes : ∀ c ∈ rest.head?, c ≠ '"' ∧ c ≠ '\'' := by
    intro c hc
    rcases hrest c hc with rfl | rfl | rfl <;> decide
  refine orElse_of_eq_some ?_
  rw [text, bind_of_eq_some (Quoted.any_write _ hquotes), pure_apply, String.ofList_toList]

theorem scalar_bool (b : Bool) (rest : List Char) :
    scalar ((Toml.bool b).chars ++ rest) = some (.bool b, rest) := by
  cases b <;> rfl

/-- A number begins with neither a quote nor a letter, and it is no date and no time. -/
theorem scalar_of_isWhole {digits : List Char} (negative : Bool) (h : Toml.IsWhole digits)
    (hrest : ∀ c ∈ rest.head?, c.isDigit = false ∧ c ≠ '-' ∧ c ≠ ':') :
    scalar (Toml.Numeral.signChars negative ++ (digits ++ rest)) =
      (Toml.Numeral.float <|> Toml.Numeral.integer)
        (Toml.Numeral.signChars negative ++ (digits ++ rest)) := by
  cases negative with
  | true => rfl
  | false =>
    have hdate := Toml.Numeral.dateTime_append h.isDigit hrest
    obtain ⟨d, ds, rfl⟩ := List.exists_cons_of_ne_nil h.ne_nil
    have hd := h.isDigit d List.mem_cons_self
    have hne : ∀ c, c.isDigit = false → d ≠ c := fun _ => Toml.ne_of_isDigit hd
    exact (orElse_of_eq_none (text_of_ne (hne _ rfl) (hne _ rfl) _)).trans
      ((orElse_of_eq_none (bool_of_ne (hne _ rfl) (hne _ rfl) _)).trans
        (orElse_of_eq_none hdate))

theorem scalar_integer {n : Nat} (hsmall : (n : Int) ≤ Toml.maxInteger)
    (hrest : Toml.Delimited rest) :
    scalar ((Toml.integer n).chars ++ rest) = some (.integer n, rest) := by
  have hwhole := Toml.isWhole_digitsOf n
  have hnext : ∀ c ∈ rest.head?, c.isDigit = false ∧ c ≠ '-' ∧ c ≠ ':' := by
    intro c hc
    rcases hrest c hc with rfl | rfl | rfl <;> decide
  have hvalue := Toml.valueIn_digitsOf n
  have hread := Toml.Numeral.integer_append hwhole hrest (by rwa [hvalue])
  rw [hvalue] at hread
  rw [Toml.chars, Toml.integerChars, if_neg (by omega), Int.natAbs_natCast]
  exact (scalar_of_isWhole false hwhole hnext).trans
    ((orElse_of_eq_none (Toml.Numeral.float_of_isWhole hwhole hrest)).trans hread)

theorem scalar_float {negative : Bool} {m : Nat} {e : Int}
    (h : binary64.Represents (.finite negative m e)) (hrest : Toml.Delimited rest) :
    scalar ((Toml.float (.finite negative m e)).chars ++ rest) =
      some (.float (.finite negative m e), rest) := by
  obtain ⟨before, behind, htext, hbefore, hne, hbehind, hvalue⟩ := Toml.exists_floatChars h
  have hnext : ∀ c ∈ ('.' :: (behind ++ rest)).head?, c.isDigit = false ∧ c ≠ '-' ∧ c ≠ ':' := by
    rintro _ ⟨⟩
    decide
  rw [Toml.chars, htext, List.append_assoc, List.append_assoc, List.cons_append,
    scalar_of_isWhole negative hbefore hnext,
    orElse_of_eq_some (Toml.Numeral.float_append hbefore hne hbehind hrest hvalue)]

/-! ## Blanks -/

/-- A character that is no blank, does not break a line and does not begin a comment. -/
def Solid (c : Char) : Prop := Quoted.isSpace c = false ∧ c ≠ '\n' ∧ c ≠ '\r' ∧ c ≠ '#'

instance : Decidable (Solid c) := inferInstanceAs (Decidable (_ ∧ _))

theorem spaces_of_solid (h : Solid c) (cs : List Char) : spaces (c :: cs) = some ((), c :: cs) :=
  bind_of_eq_some (span_of_ends (ends_cons h.1))

/-- A blank, a line break or a comment in an array. -/
def gapPiece : Reader Unit :=
  (do
    let _ ← Reader.run Quoted.isSpace
    return ()) <|> (do
    let _ ← Quoted.newline
    return ()) <|> (do
    comment
    let _ ← Quoted.newline
    return ())

theorem gap_eq_some_iff : gap cs = some ((), rest) ↔ ∃ us, many gapPiece cs = some (us, rest) := by
  show (many gapPiece >>= fun _ => pure ()) cs = some ((), rest) ↔ _
  cases h : many gapPiece cs with
  | none => simp [bind_of_eq_none h]
  | some r =>
    obtain ⟨us, left⟩ := r
    simp [bind_of_eq_some h]

theorem gap_of_solid (h : Solid c) (cs : List Char) : gap (c :: cs) = some ((), c :: cs) := by
  obtain ⟨hspace, hnewline, hreturn, hcomment⟩ := h
  refine gap_eq_some_iff.2 ⟨[], many_of_eq_none ?_⟩
  refine (orElse_of_eq_none (bind_of_eq_none (run_of_ends (ends_cons hspace)))).trans ?_
  exact (orElse_of_eq_none (bind_of_eq_none (Quoted.newline_of_ne hnewline hreturn cs))).trans
    (bind_of_eq_none (bind_of_eq_none (the_of_ne hcomment)))

theorem gap_newline (h : gap cs = some ((), rest)) : gap ('\n' :: cs) = some ((), rest) := by
  obtain ⟨us, hmany⟩ := gap_eq_some_iff.1 h
  have hpiece : gapPiece ('\n' :: cs) = some ((), cs) := rfl
  exact gap_eq_some_iff.2 ⟨_, many_of_eq_some hpiece (Nat.lt_succ_self _) hmany⟩

theorem gap_indent (h : Solid c) (cs : List Char) :
    gap (' ' :: ' ' :: ' ' :: ' ' :: c :: cs) = some ((), c :: cs) := by
  obtain ⟨us, hmany⟩ := gap_eq_some_iff.1 (gap_of_solid h cs)
  have hrun : run Quoted.isSpace ([' ', ' ', ' ', ' '] ++ c :: cs) =
      some ([' ', ' ', ' ', ' '], c :: cs) :=
    run_append (by simp) (by simp [Quoted.isSpace]) (ends_cons h.1)
  have hpiece : gapPiece (' ' :: ' ' :: ' ' :: ' ' :: c :: cs) = some ((), c :: cs) :=
    orElse_of_eq_some (bind_of_eq_some hrun)
  exact gap_eq_some_iff.2 ⟨_, many_of_eq_some hpiece (by simp) hmany⟩

end Statement

/-! ## Arrays -/

/-- The text of the value is read back, within at most `depth` brackets around one another. -/
structure Toml.Legible (depth : Nat) (v : Toml) : Prop where
  solid : ∃ c cs, v.chars = c :: cs ∧ Statement.Solid c
  read : ∀ rest, Delimited rest → Statement.value depth (v.chars ++ rest) = some (v, rest)

namespace Statement

theorem value_of_scalar {r : Toml × List Char} (h : scalar cs = some r) (depth : Nat) :
    value depth cs = some r := by
  cases depth with
  | zero => exact h
  | succ depth => exact orElse_of_eq_some h

/-- A bracket that closes an array is no value. -/
theorem value_bracket (depth : Nat) (cs : List Char) : value depth (']' :: cs) = none := by
  cases depth <;> rfl

theorem value_array (depth : Nat) (cs : List Char) :
    value (depth + 1) ('[' :: cs) =
      (array (value depth) <|> inlineTable (value depth)) ('[' :: cs) :=
  rfl

/-- An item of an array, with blanks around it. -/
def item (depth : Nat) : Reader Toml := do
  gap
  let v ← value depth
  gap
  return v

theorem item_of_gap (h : v.Legible depth)
    (hcs : gap cs = some ((), v.chars ++ c :: rest)) (hc : c = ',' ∨ c = ']') :
    item depth cs = some (v, c :: rest) := by
  have hrest : Toml.Delimited (c :: rest) := by
    rintro _ ⟨⟩
    exact .inr hc
  have hsolid : Solid c := by
    rcases hc with rfl | rfl <;> decide
  rw [item, bind_of_eq_some hcs, bind_of_eq_some (h.read _ hrest),
    bind_of_eq_some (gap_of_solid hsolid rest), pure_apply]

/-- An item on a line of its own. -/
theorem item_line (h : v.Legible depth) (cs : List Char) :
    item depth (['\n', ' ', ' ', ' ', ' '] ++ v.chars ++ ',' :: cs) = some (v, ',' :: cs) := by
  refine item_of_gap h ?_ (.inl rfl)
  obtain ⟨d, ds, hchars, hd⟩ := h.solid
  rw [hchars]
  exact gap_newline (gap_indent hd _)

/-- The items behind the first one.  The comma behind the last one is left. -/
theorem many_item (h : ∀ v ∈ items, v.Legible depth) (cs : List Char) :
    many (do the ','; item depth) (',' :: (Toml.itemLines items ++ '\n' :: ']' :: cs)) =
      some (items, ',' :: '\n' :: ']' :: cs) := by
  induction items with
  | nil =>
    have hgap : gap ('\n' :: ']' :: cs) = some ((), ']' :: cs) :=
      gap_newline (gap_of_solid (by decide) cs)
    have hitem : item depth ('\n' :: ']' :: cs) = none := by
      rw [item, bind_of_eq_some hgap, bind_of_eq_none (value_bracket depth cs)]
    exact many_of_eq_none ((bind_of_eq_some the_self).trans hitem)
  | cons v items ih =>
    rw [List.forall_mem_cons] at h
    rw [Toml.itemLines, List.append_assoc, List.cons_append]
    refine many_of_eq_some ((bind_of_eq_some the_self).trans
      (item_line h.1 (Toml.itemLines items ++ '\n' :: ']' :: cs))) ?_ (ih h.2)
    simp only [List.length_cons, List.length_append]
    omega

theorem array_nil (depth : Nat) (rest : List Char) :
    array (value depth) ('[' :: ']' :: rest) = some (.array [], rest) := by
  have hclose : gap (']' :: rest) = some ((), ']' :: rest) := gap_of_solid (by decide) rest
  have hitem : item depth (']' :: rest) = none := by
    rw [item, bind_of_eq_some hclose, bind_of_eq_none (value_bracket depth rest)]
  rw [array, bind_of_eq_some the_self]
  refine (bind_of_eq_some (possible_of_eq_none (bind_of_eq_none hitem))).trans ?_
  exact (bind_of_eq_some hclose).trans (bind_of_eq_some the_self)

theorem separated_of_eq_some {left left' : List Char} (hfirst : item depth cs = some (v, left))
    (hmore : many (do the ','; item depth) left = some (items, left')) :
    separated (the ',') (item depth) cs = some (v :: items, left') := by
  rw [separated, bind_of_eq_some hfirst]
  exact bind_of_eq_some hmore

theorem array_of_separated {left left' : List Char} {o : Option Unit}
    (hitems : separated (the ',') (item depth) cs = some (items, left))
    (hcomma : possible (the ',') left = some (o, left'))
    (hgap : gap left' = some ((), ']' :: rest)) :
    array (value depth) ('[' :: cs) = some (.array items, rest) := by
  rw [array, bind_of_eq_some the_self]
  refine (bind_of_eq_some (possible_of_eq_some hitems)).trans ?_
  refine (bind_of_eq_some hcomma).trans ?_
  exact (bind_of_eq_some hgap).trans (bind_of_eq_some the_self)

end Statement

namespace Toml

open Statement

theorem legible_array (h : ∀ v ∈ items, v.Legible depth) :
    (Toml.array items).Legible (depth + 1) := by
  refine ⟨?_, fun rest _ => ?_⟩
  · rcases items with _ | ⟨v, _ | ⟨w, items⟩⟩
    all_goals exact ⟨_, _, rfl, by decide⟩
  have hread : ∀ {cs : List Char},
      Statement.array (value depth) ('[' :: cs) = some (.array items, rest) →
        value (depth + 1) ('[' :: cs) = some (.array items, rest) :=
    fun harray => (value_array depth _).trans (orElse_of_eq_some harray)
  have hclose : gap (']' :: rest) = some ((), ']' :: rest) := gap_of_solid (by decide) rest
  -- An array of at most one item stands on one line; others have a line for each item.
  rcases items with _ | ⟨v, _ | ⟨w, items⟩⟩
  · exact hread (array_nil depth rest)
  · rw [List.forall_mem_singleton] at h
    obtain ⟨c, cs, hchars, hc⟩ := h.solid
    have hgap : gap (v.chars ++ ']' :: rest) = some ((), v.chars ++ ']' :: rest) := by
      rw [hchars]
      exact gap_of_solid hc _
    have hcomma : the ',' (']' :: rest) = none := the_of_ne (by decide)
    have hitems := separated_of_eq_some (item_of_gap h hgap (.inr rfl))
      (many_of_eq_none (bind_of_eq_none hcomma))
    rw [Toml.chars, List.append_assoc]
    exact hread (array_of_separated hitems (possible_of_eq_none hcomma) hclose)
  · rw [List.forall_mem_cons] at h
    have hitems := separated_of_eq_some
      (item_line h.1 (itemLines (w :: items) ++ '\n' :: ']' :: rest)) (many_item h.2 rest)
    have hgap : gap ('\n' :: ']' :: rest) = some ((), ']' :: rest) := gap_newline hclose
    have hchars : (Toml.array (v :: w :: items)).chars ++ rest =
        '[' :: (['\n', ' ', ' ', ' ', ' '] ++ v.chars ++
          ',' :: (itemLines (w :: items) ++ '\n' :: ']' :: rest)) := by
      rw [Toml.chars, itemLines]
      · simp
      · simp
      · simp
    rw [hchars]
    exact hread (array_of_separated hitems (possible_of_eq_some the_self) hgap)

/-! ## Values without brackets again -/

theorem solid_of_isDigit (h : c.isDigit = true) : Solid c := by
  have hne : ∀ d, d.isDigit = false → c ≠ d := fun _ => ne_of_isDigit h
  refine ⟨?_, hne _ rfl, hne _ rfl, hne _ rfl⟩
  simp [Quoted.isSpace, hne ' ' rfl, hne '\t' rfl]

theorem exists_solid_of_isWhole {digits : List Char} (h : IsWhole digits) (rest : List Char) :
    ∃ c cs, digits ++ rest = c :: cs ∧ Solid c := by
  obtain ⟨d, ds, rfl⟩ := List.exists_cons_of_ne_nil h.ne_nil
  exact ⟨d, ds ++ rest, rfl, solid_of_isDigit (h.isDigit d List.mem_cons_self)⟩

theorem legible_text (depth : Nat) (s : String) : (Toml.text s).Legible depth := by
  refine ⟨?_, fun rest hrest => value_of_scalar (scalar_write s hrest) depth⟩
  rw [chars, Quoted.write]
  cases TextForm.choose s.toList
  all_goals exact ⟨_, _, rfl, by decide⟩

theorem legible_bool (depth : Nat) (b : Bool) : (Toml.bool b).Legible depth := by
  refine ⟨?_, fun rest _ => value_of_scalar (scalar_bool b rest) depth⟩
  cases b
  all_goals exact ⟨_, _, rfl, by decide⟩

theorem legible_integer (depth : Nat) {n : Nat} (h : (n : Int) ≤ maxInteger) :
    (Toml.integer n).Legible depth := by
  refine ⟨?_, fun rest hrest => value_of_scalar (scalar_integer h hrest) depth⟩
  rw [chars, integerChars, if_neg (by omega), Int.natAbs_natCast]
  simpa using exists_solid_of_isWhole (isWhole_digitsOf n) []

theorem legible_float (depth : Nat) {negative : Bool} {m : Nat} {e : Int}
    (h : binary64.Represents (.finite negative m e)) :
    (Toml.float (.finite negative m e)).Legible depth := by
  refine ⟨?_, fun rest hrest => value_of_scalar (scalar_float h hrest) depth⟩
  obtain ⟨before, behind, htext, hbefore, -⟩ := exists_floatChars h
  rw [chars, htext]
  cases negative with
  | true => exact ⟨_, _, rfl, by decide⟩
  | false => exact exists_solid_of_isWhole hbefore _

end Toml

end AgentLoop
