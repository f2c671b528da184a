import AgentLoop.Json.Printer
import AgentLoop.Json.Token
import Mathlib.Tactic.IntervalCases

/-!
# What a written value is read as

A value whose numbers are integers of at most 64 bits is written in lexemes that the machine finds
again, whether it is written compactly or over lines.

* `Json.lexemes` are the lexemes of a value.
* `Scan.Reads cs rest ls` says that the machine reads the characters `cs` as the lexemes `ls` when
  `rest` comes after them.  It has to look at `rest`, because a number does not end by itself;
  `Breaks rest` says that `rest` ends one.
* `reads_quoteChars` and `reads_intChars` are about texts and numbers, `reads_chars` and
  `reads_prettyChars` about whole values.
-/

namespace AgentLoop

/-! ## Lexemes -/

namespace Json

mutual

/-- The lexemes in which a value is written. -/
def lexemes : Json → List Lexeme
  | .null => [.null]
  | .bool b => [.bool b]
  | .num n => [.number (.ok n)]
  | .str s => [.text (.ok s)]
  | .arr items => .openBracket :: itemsLexemes items ++ [.closeBracket]
  | .obj fields => .openBrace :: fieldsLexemes fields ++ [.closeBrace]

/-- The items of an array with commas between them. -/
def itemsLexemes : List Json → List Lexeme
  | [] => []
  | [item] => item.lexemes
  | item :: items => item.lexemes ++ .comma :: itemsLexemes items

/-- The fields of an object with commas between them. -/
def fieldsLexemes : List (String × Json) → List Lexeme
  | [] => []
  | [(key, value)] => .text (.ok key) :: .colon :: value.lexemes
  | (key, value) :: fields =>
    .text (.ok key) :: .colon :: (value.lexemes ++ .comma :: fieldsLexemes fields)

end

mutual

/-- Every number inside the value is an integer of at most 64 bits, signed or unsigned. -/
def Whole : Json → Prop
  | .num (.int i) => -0x8000000000000000 ≤ i ∧ i < 0x10000000000000000
  | .num _ => False
  | .arr items => WholeItems items
  | .obj fields => WholeFields fields
  | _ => True

/-- `Json.Whole` for every item of an array. -/
def WholeItems : List Json → Prop
  | [] => True
  | item :: items => item.Whole ∧ WholeItems items

/-- `Json.Whole` for the value of every field of an object. -/
def WholeFields : List (String × Json) → Prop
  | [] => True
  | (_, value) :: fields => value.Whole ∧ WholeFields fields

end

end Json

/-! ## Reading lexemes -/

/-- The place behind some characters. -/
def Position.past (p : Position) (cs : List Char) : Position := cs.foldl Position.after p

namespace Scan

/-- The lexemes of the characters from the place `p` on. -/
def lexemes (s : Scan) (p : Position) (cs : List Char) : List Lexeme :=
  (Token.scanFrom s p cs).map Token.lexeme

theorem lexemes_cons (s : Scan) (p : Position) (c : Char) (cs : List Char) :
    s.lexemes p (c :: cs) =
      (s.step p c).1.map Token.lexeme ++ (s.step p c).2.lexemes (p.after c) cs := by
  simp only [lexemes, Token.scanFrom, List.map_append]

/-- The characters are read as these lexemes when `rest` comes after them. -/
def Reads (cs rest : List Char) (ls : List Lexeme) : Prop :=
  ∀ p, between.lexemes p (cs ++ rest) = ls ++ between.lexemes (p.past cs) rest

variable {cs cs' rest : List Char} {ls ls' : List Lexeme}

theorem reads_nil : Reads [] rest [] := fun _ => rfl

theorem Reads.append (h : Reads cs (cs' ++ rest) ls) (h' : Reads cs' rest ls') :
    Reads (cs ++ cs') rest (ls ++ ls') := by
  intro p
  rw [List.append_assoc, h p, h' (p.past cs), Position.past, Position.past, Position.past,
    List.foldl_append, List.append_assoc]

/-- One character between others. -/
theorem Reads.cons {c : Char} {l : List Lexeme} (hc : Reads [c] (cs ++ rest) l)
    (h : Reads cs rest ls) : Reads (c :: cs) rest (l ++ ls) :=
  hc.append h

theorem reads_space : Reads [' '] rest [] := fun _ => rfl

theorem reads_newline : Reads ['\n'] rest [] := fun _ => rfl

theorem reads_openBracket : Reads ['['] rest [.openBracket] := fun _ => rfl

theorem reads_closeBracket : Reads [']'] rest [.closeBracket] := fun _ => rfl

theorem reads_openBrace : Reads ['\x7b'] rest [.openBrace] := fun _ => rfl

theorem reads_closeBrace : Reads ['\x7d'] rest [.closeBrace] := fun _ => rfl

theorem reads_colon : Reads [':'] rest [.colon] := fun _ => rfl

theorem reads_comma : Reads [','] rest [.comma] := fun _ => rfl

theorem reads_null : Reads ['n', 'u', 'l', 'l'] rest [.null] := fun _ => rfl

theorem reads_true : Reads ['t', 'r', 'u', 'e'] rest [.bool true] := fun _ => rfl

theorem reads_false : Reads ['f', 'a', 'l', 's', 'e'] rest [.bool false] := fun _ => rfl

theorem reads_newLine (level : Nat) : Reads (Json.newLine level) rest [] := by
  have hspaces : ∀ n, Reads (List.replicate n ' ') rest [] := by
    intro n
    induction n with
    | zero => exact reads_nil
    | succ n ih =>
      rw [List.replicate_succ]
      exact reads_space.cons ih
  exact reads_newline.cons (hspaces _)

/-! ## Texts -/

theorem hexValue?_hexDigit : ∀ n < 0x10, hexValue? (hexDigit n) = some n := by
  decide

/-- The machine within a text of which it has read the characters `read`, last one first. -/
def within (start : Position) (read : List Char) : Scan := .quoted start ⟨.plain, .ok read, none⟩

/-- A character that is not escaped. -/
theorem lexemes_plain {c : Char} (start p : Position) (read : List Char) (hquote : c ≠ '"')
    (hbackslash : c ≠ '\\') (hcontrol : ¬ c.toNat < 0x20) :
    (within start read).lexemes p (c :: rest) =
      (within start (c :: read)).lexemes (p.after c) rest := by
  rw [lexemes_cons]
  simp [within, step, Quoted.step, Quoted.settle, Quoted.push, hquote, hbackslash, hcontrol,
    Except.map]

/-- A character that is escaped by a letter. -/
theorem lexemes_letter {c letter : Char} (start p : Position) (read : List Char)
    (hletter : Quoted.unescape? letter = some c) (hhex : letter ≠ 'u') :
    (within start read).lexemes p ('\\' :: letter :: rest) =
      (within start (c :: read)).lexemes ((p.after '\\').after letter) rest := by
  rw [lexemes_cons, lexemes_cons]
  simp [within, step, Quoted.step, Quoted.settle, Quoted.push, hletter, hhex, Except.map]

/-- A character that is escaped by four hexadecimal digits, of which the first two are zero. -/
theorem lexemes_hex {high low : Nat} (start p : Position) (read rest : List Char)
    (hhigh : high < 0x10) (hlow : low < 0x10) :
    (within start read).lexemes p
        ('\\' :: 'u' :: '0' :: '0' :: hexDigit high :: hexDigit low :: rest) =
      (within start (Char.ofNat (high * 0x10 + low) :: read)).lexemes
        (p.past ['\\', 'u', '0', '0', hexDigit high, hexDigit low]) rest := by
  have hzero : hexValue? '0' = some 0 := rfl
  have hunit : high * 0x10 + low < 0x100 := by omega
  have hlead : ¬ 0xD800 ≤ high * 0x10 + low := by omega
  have htrail : ¬ 0xDC00 ≤ high * 0x10 + low := by omega
  simp [lexemes_cons, within, step, Quoted.step, Quoted.stepHex, hzero,
    hexValue?_hexDigit high hhigh, hexValue?_hexDigit low hlow, Quoted.pushUnit, Quoted.push, hlead, htrail, Except.map,
    Position.past]

/-- However a character is written within a text, the machine reads it. -/
theorem lexemes_escapeChar (start p : Position) (read : List Char) (c : Char) :
    (within start read).lexemes p (Json.escapeChar c ++ rest) =
      (within start (c :: read)).lexemes (p.past (Json.escapeChar c)) rest := by
  unfold Json.escapeChar
  split
  case h_8 hquote hbackslash _ _ _ _ _ =>
    split
    · next hcontrol =>
      have hhigh : c.toNat / 16 < 0x10 := by omega
      have hlow : c.toNat % 16 < 0x10 := by omega
      have hsame : Char.ofNat (c.toNat / 16 * 0x10 + c.toNat % 16) = c := by
        rw [Nat.div_add_mod', Char.ofNat_toNat]
      have hread := lexemes_hex start p read rest hhigh hlow
      rwa [hsame] at hread
    · next hcontrol => exact lexemes_plain start p read hquote hbackslash hcontrol
  all_goals exact lexemes_letter start p read rfl (by decide)

theorem lexemes_escapeChars (start p : Position) (read s : List Char) :
    (within start read).lexemes p (s.flatMap Json.escapeChar ++ rest) =
      (within start (s.reverse ++ read)).lexemes (p.past (s.flatMap Json.escapeChar)) rest := by
  induction s generalizing p read with
  | nil => rfl
  | cons c s ih =>
    rw [List.flatMap_cons, List.append_assoc, lexemes_escapeChar, ih, List.reverse_cons,
      List.append_assoc, List.singleton_append, Position.past, Position.past, Position.past,
      List.foldl_append]

theorem reads_quoteChars (s : String) :
    Reads (Json.quoteChars s.toList) rest [.text (.ok s)] := by
  intro p
  have hopen : between.lexemes p (Json.quoteChars s.toList ++ rest) =
      (within (p.report '"') []).lexemes (p.after '"')
        (s.toList.flatMap Json.escapeChar ++ '"' :: rest) := by
    rw [Json.quoteChars, List.append_assoc]
    rfl
  rw [hopen, lexemes_escapeChars, lexemes_cons, List.append_nil]
  simp [within, step, Quoted.step, Quoted.settle, Except.map, Json.quoteChars, Position.past]

/-! ## Numbers -/

/-- The character is not part of the number before it. -/
def endsNumber (c : Char) : Bool := !isDigit c && c != '.' && c != 'e' && c != 'E'

/-- What comes next ends a number. -/
def Breaks (rest : List Char) : Prop := ∀ c ∈ rest.head?, endsNumber c = true

/-- An integer that has been read so far. -/
def whole (negative : Bool) (n : Nat) : Numeral :=
  ⟨if n = 0 then .zero else .whole, negative, n, 0, false, false, 0, none⟩

theorem isDigit_digitChar : ∀ d < 10, isDigit d.digitChar = true := by
  decide

theorem digitValue_digitChar : ∀ d < 10, digitValue d.digitChar = d := by
  decide

theorem next_whole {n d : Nat} (negative : Bool) (p : Position) (hpos : 0 < n) (hd : d < 10)
    (hsize : n * 10 + d < 0x10000000000000000) :
    (whole negative n).next p d.digitChar = some (whole negative (n * 10 + d)) := by
  have hn : n ≠ 0 := by omega
  have hmore : n * 10 + d ≠ 0 := by omega
  rw [whole, whole, if_neg hn, if_neg hmore]
  simp [Numeral.next, Numeral.pushWhole, Numeral.takeIn, isDigit_digitChar d hd,
    digitValue_digitChar d hd, hsize]

/-- The machine takes a digit for the first one of an integer. -/
def Awaits (s : Scan) (negative : Bool) : Prop :=
  ∀ d < 10, ∀ p rest, ∃ start, s.lexemes p (d.digitChar :: rest) =
    (numeral start (whole negative d)).lexemes (p.after d.digitChar) rest

theorem awaits_between : Awaits between false := by
  intro d hd p rest
  refine ⟨p.report d.digitChar, ?_⟩
  interval_cases d <;> rfl

theorem awaits_sign (start : Position) :
    Awaits (numeral start ⟨.sign, true, 0, 0, false, false, 0, none⟩) true := by
  intro d hd p rest
  refine ⟨start, ?_⟩
  interval_cases d <;> rfl

/-- Behind the digits of a number the machine has read this number. -/
theorem lexemes_digits {s : Scan} {negative : Bool} (h : Awaits s negative) (p : Position)
    (rest : List Char) (n : Nat) (hsize : n < 0x10000000000000000) :
    ∃ start, s.lexemes p (Nat.toDigits 10 n ++ rest) =
      (numeral start (whole negative n)).lexemes (p.past (Nat.toDigits 10 n)) rest := by
  induction n using Nat.strongRecOn generalizing rest with
  | ind n ih =>
    by_cases hn : n < 10
    · rw [Nat.toDigits_of_lt_base hn]
      exact h n hn p rest
    · have hlast : n % 10 < 10 := Nat.mod_lt _ (by decide)
      have hsplit : n / 10 * 10 + n % 10 = n := by omega
      rw [Nat.toDigits_of_base_le (by decide) (by omega), List.append_assoc]
      obtain ⟨start, hfirst⟩ := ih (n / 10) (by omega) ([(n % 10).digitChar] ++ rest) (by omega)
      refine ⟨start, ?_⟩
      rw [hfirst, List.singleton_append, lexemes_cons, step,
        next_whole negative _ (by omega) hlast (by omega), hsplit, Position.past, Position.past,
        List.foldl_append]
      rfl

/-- Something that ends a number ends an integer. -/
theorem lexemes_whole {negative : Bool} {n : Nat} {i : Int} (start p : Position)
    (hvalue : (whole negative n).integer? = some i) (hrest : Breaks rest) :
    (numeral start (whole negative n)).lexemes p rest =
      .number (.ok (.int i)) :: between.lexemes p rest := by
  have hcomplete : (whole negative n).complete = true := by
    by_cases hn : n = 0 <;> simp [whole, Numeral.complete, hn]
  have hnumber : ∀ p, (whole negative n).value p = .ok (.int i) := by
    intro p
    rw [Numeral.value, hvalue]
  cases rest with
  | nil => simp [lexemes, Token.scanFrom, close, hcomplete, hnumber]
  | cons c cs =>
    have hc : endsNumber c = true := hrest c rfl
    simp only [endsNumber, Bool.and_eq_true, Bool.not_eq_true', bne_iff_ne] at hc
    obtain ⟨⟨⟨hdigit, hpoint⟩, he⟩, hE⟩ := hc
    have hnext : ∀ p, (whole negative n).next p c = none := by
      intro p
      by_cases hn : n = 0 <;> simp [whole, Numeral.next, hn, hdigit, hpoint, he, hE]
    have hforbids : (whole negative n).forbids c = false := by
      simp [Numeral.forbids, hdigit]
    rw [lexemes_cons, lexemes_cons, step, step, hnext]
    simp [hcomplete, hforbids, hnumber]

theorem reads_intChars {i : Int} (hlow : -0x8000000000000000 ≤ i) (hhigh : i < 0x10000000000000000)
    (hrest : Breaks rest) : Reads (Json.intChars i) rest [.number (.ok (.int i))] := by
  intro p
  rw [Json.intChars, Layout.digitsOf]
  split
  · next hnegative =>
    have hvalue : (whole true i.natAbs).integer? = some i := by
      have hne : i.natAbs ≠ 0 := by omega
      have hpos : 0 < i.natAbs := by omega
      have hle : i.natAbs ≤ 0x8000000000000000 := by omega
      rw [whole, if_neg hne]
      simp only [Numeral.integer?, hpos, hle, decide_true, Bool.and_self, if_true, Bool.not_true,
        Bool.false_eq_true, if_false, Option.some.injEq]
      omega
    obtain ⟨start, hread⟩ := lexemes_digits (awaits_sign (p.report '-')) (p.after '-') rest
      i.natAbs (by omega)
    have hsign : between.lexemes p ('-' :: Nat.toDigits 10 i.natAbs ++ rest) =
        (numeral (p.report '-') ⟨.sign, true, 0, 0, false, false, 0, none⟩).lexemes (p.after '-')
          (Nat.toDigits 10 i.natAbs ++ rest) := rfl
    rw [hsign, hread, lexemes_whole _ _ hvalue hrest]
    rfl
  · next hpositive =>
    have hvalue : (whole false i.natAbs).integer? = some i := by
      by_cases hzero : i = 0
      · subst hzero
        rfl
      · have hne : i.natAbs ≠ 0 := by omega
        have hsame : (i.natAbs : Int) = i := by omega
        simp [whole, Numeral.integer?, hne, hsame]
    obtain ⟨start, hread⟩ := lexemes_digits awaits_between p rest i.natAbs (by omega)
    rw [hread, lexemes_whole _ _ hvalue hrest]
    rfl

/-! ## Values -/

theorem breaks_nil : Breaks [] := by
  simp [Breaks]

theorem breaks_cons {c : Char} (h : endsNumber c = true) : Breaks (c :: rest) := by
  simpa [Breaks] using h

theorem breaks_newLine (level : Nat) : Breaks (Json.newLine level ++ rest) :=
  breaks_cons rfl

mutual

/-- A value that is written compactly is read as its lexemes. -/
theorem reads_chars : ∀ (value : Json) (rest : List Char), value.Whole → Breaks rest →
    Reads value.chars rest value.lexemes
  | .null, _, _, _ => reads_null
  | .bool true, _, _, _ => reads_true
  | .bool false, _, _, _ => reads_false
  | .num (.int _), _, hwhole, hrest => reads_intChars hwhole.1 hwhole.2 hrest
  | .num (.real _), _, hwhole, _ => hwhole.elim
  | .num (.single _), _, hwhole, _ => hwhole.elim
  | .str s, _, _, _ => reads_quoteChars s
  | .arr items, rest, hwhole, _ => by
    have hitems := reads_itemsChars items ([']'] ++ rest) hwhole (breaks_cons rfl)
    exact reads_openBracket.cons (hitems.append reads_closeBracket)
  | .obj fields, rest, hwhole, _ => by
    have hfields := reads_fieldsChars fields (['\x7d'] ++ rest) hwhole (breaks_cons rfl)
    exact reads_openBrace.cons (hfields.append reads_closeBrace)

theorem reads_itemsChars : ∀ (items : List Json) (rest : List Char), Json.WholeItems items →
    Breaks rest → Reads (Json.itemsChars items) rest (Json.itemsLexemes items)
  | [], _, _, _ => reads_nil
  | [item], rest, hwhole, hrest => reads_chars item rest hwhole.1 hrest
  | item :: next :: items, rest, hwhole, hrest => by
    have hitems := reads_itemsChars (next :: items) rest hwhole.2 hrest
    have hitem := reads_chars item (',' :: Json.itemsChars (next :: items) ++ rest) hwhole.1
      (breaks_cons rfl)
    exact hitem.append (reads_comma.cons hitems)

theorem reads_fieldsChars : ∀ (fields : List (String × Json)) (rest : List Char),
    Json.WholeFields fields → Breaks rest →
    Reads (Json.fieldsChars fields) rest (Json.fieldsLexemes fields)
  | [], _, _, _ => reads_nil
  | [(key, value)], rest, hwhole, hrest => by
    have hvalue := reads_chars value rest hwhole.1 hrest
    exact (reads_quoteChars key).append (reads_colon.cons hvalue)
  | (key, value) :: next :: fields, rest, hwhole, hrest => by
    have hfields := reads_fieldsChars (next :: fields) rest hwhole.2 hrest
    have hvalue := reads_chars value (',' :: Json.fieldsChars (next :: fields) ++ rest) hwhole.1
      (breaks_cons rfl)
    exact (reads_quoteChars key).append
      (reads_colon.cons (hvalue.append (reads_comma.cons hfields)))

end

mutual

/-- A value that is written over lines is read as the same lexemes. -/
theorem reads_prettyChars : ∀ (value : Json) (level : Nat) (rest : List Char), value.Whole →
    Breaks rest → Reads (value.prettyChars level) rest value.lexemes
  | .null, _, _, _, _ => reads_null
  | .bool true, _, _, _, _ => reads_true
  | .bool false, _, _, _, _ => reads_false
  | .num n, _, rest, hwhole, hrest => reads_chars (.num n) rest hwhole hrest
  | .str s, _, _, _, _ => reads_quoteChars s
  | .arr [], _, _, _, _ => reads_openBracket.cons reads_closeBracket
  | .arr (item :: items), level, rest, hwhole, _ => by
    have hitems := reads_prettyItems (item :: items) (level + 1)
      (Json.newLine level ++ ([']'] ++ rest)) hwhole (breaks_newLine level)
    have hline : Reads (Json.newLine level) ([']'] ++ rest) [] := reads_newLine level
    have hclose := (hitems.append hline).append reads_closeBracket
    rw [List.append_nil] at hclose
    exact reads_openBracket.cons hclose
  | .obj [], _, _, _, _ => reads_openBrace.cons reads_closeBrace
  | .obj (field :: fields), level, rest, hwhole, _ => by
    have hfields := reads_prettyFields (field :: fields) (level + 1)
      (Json.newLine level ++ (['\x7d'] ++ rest)) hwhole (breaks_newLine level)
    have hline : Reads (Json.newLine level) (['\x7d'] ++ rest) [] := reads_newLine level
    have hclose := (hfields.append hline).append reads_closeBrace
    rw [List.append_nil] at hclose
    exact reads_openBrace.cons hclose

theorem reads_prettyItems : ∀ (items : List Json) (level : Nat) (rest : List Char),
    Json.WholeItems items → Breaks rest →
    Reads (Json.prettyItems level items) rest (Json.itemsLexemes items)
  | [], _, _, _, _ => reads_nil
  | [item], level, rest, hwhole, hrest =>
    (reads_newLine level).append (reads_prettyChars item level rest hwhole.1 hrest)
  | item :: next :: items, level, rest, hwhole, hrest => by
    have hitems := reads_prettyItems (next :: items) level rest hwhole.2 hrest
    have hitem := reads_prettyChars item level
      (',' :: Json.prettyItems level (next :: items) ++ rest) hwhole.1 (breaks_cons rfl)
    exact ((reads_newLine level).append hitem).append (reads_comma.cons hitems)

theorem reads_prettyFields : ∀ (fields : List (String × Json)) (level : Nat) (rest : List Char),
    Json.WholeFields fields → Breaks rest →
    Reads (Json.prettyFields level fields) rest (Json.fieldsLexemes fields)
  | [], _, _, _, _ => reads_nil
  | [(key, value)], level, rest, hwhole, hrest => by
    have hvalue := reads_prettyChars value level rest hwhole.1 hrest
    exact ((reads_newLine level).append (reads_quoteChars key)).append
      (reads_colon.cons (reads_space.cons hvalue))
  | (key, value) :: next :: fields, level, rest, hwhole, hrest => by
    have hfields := reads_prettyFields (next :: fields) level rest hwhole.2 hrest
    have hvalue := reads_prettyChars value level
      (',' :: Json.prettyFields level (next :: fields) ++ rest) hwhole.1 (breaks_cons rfl)
    exact ((reads_newLine level).append (reads_quoteChars key)).append
      (reads_colon.cons (reads_space.cons (hvalue.append (reads_comma.cons hfields))))

end

end Scan

end AgentLoop
