import AgentLoop.Answer
import AgentLoop.Arguments
import AgentLoop.Proofs.Trees
import AgentLoop.Proofs.Trimming

/-!
# Arguments that a script writes

A value that stands for the arguments of a call is written as a text, and the text is read
defensively.  An object is read back as it is, whatever blanks stand around its text, and it is the
same object when the text is read as a final answer.  Nothing else that is structured is read as an
object.

* `Json.Plain` are the values that are read back from their texts.
* `Json.read_ne_object`: a text that begins with another character than a brace is no object.  It
  rests on two inductions: over the characters of the first token (`Scan.opens_scanFrom`) and over
  the tokens behind it (`Build.Barred.foldl_feed`).
* `read_write_object`, `read_write_of_plain` and `exists_read_write_eq_error` say what becomes of an
  object and of the other values.
-/

namespace AgentLoop

/-! ## Trees that are no objects -/

/-- The tree does not stand for an object. -/
def Tree.NoObject (tree : Tree) : Prop := ∀ fields, tree.use ≠ .ok (.obj fields)

namespace Tree

theorem noObject_array (items : List Tree) (ending : Option Fault) :
    (array items ending).NoObject := by
  intro fields h
  rw [use] at h
  cases hitems : useItems items with
  | error f => simp [hitems, bind, Except.bind] at h
  | ok values =>
    cases ending <;> simp [hitems, ended, bind, Except.bind, pure, Except.pure] at h

theorem noObject_of_error {tree : Tree} {f : Fault} (h : tree.use = .error f) : tree.NoObject := by
  intro fields hfields
  cases h.symm.trans hfields

theorem noObject_null : null.NoObject := by
  rintro fields ⟨⟩

theorem noObject_bool (b : Bool) : (bool b).NoObject := by
  rintro fields ⟨⟩

theorem noObject_number (n : Except Fault JsonNumber) : (number n).NoObject := by
  intro fields h
  cases n <;> cases h

theorem noObject_text (s : Except Fault String) : (text s).NoObject := by
  intro fields h
  cases s <;> cases h

end Tree

namespace Build

/-- The outermost bracket that is open is that of an array. -/
def InArray (frames : List Frame) : Prop :=
  ∃ opened items, frames.getLast? = some (.array opened items)

/-- Whatever comes next, building does not end in an object. -/
def Barred : Build → Prop
  | .value _ frames | .key _ _ _ frames | .colon _ _ _ frames => InArray frames
  | .after tree frames => frames = [] ∧ tree.NoObject ∨ InArray frames
  | .done tree _ => tree.NoObject

variable {b : Build} {frames : List Frame} {frame : Frame} {t : Token}

theorem InArray.cons (h : InArray frames) (frame : Frame) : InArray (frame :: frames) := by
  obtain ⟨opened, items, hlast⟩ := h
  exact ⟨opened, items, by simp [List.getLast?_cons, hlast]⟩

theorem inArray_singleton (opened : Position) (items : List Tree) :
    InArray [.array opened items] :=
  ⟨opened, items, rfl⟩

/-- Inside a bracket the outermost one is the same, unless it is this bracket. -/
theorem inArray_cons_iff :
    InArray (frame :: frames) ↔
      frames = [] ∧ (∃ opened items, frame = .array opened items) ∨ InArray frames := by
  cases frames with
  | nil => simp [InArray]
  | cons other frames => simp [InArray, List.getLast?_cons_cons]

theorem InArray.array {opened : Position} {items : List Tree}
    (h : InArray (.array opened items :: frames)) (others : List Tree) :
    InArray (.array opened others :: frames) := by
  simpa [inArray_cons_iff] using h

theorem noObject_shut (opened : Position) (items : List Tree) (ending : Option Fault)
    (outer : List Frame) : (shut outer opened (.array items ending)).NoObject := by
  rw [shut]
  split
  · exact Tree.noObject_of_error rfl
  · exact Tree.noObject_array items ending

/-- What is left of an array that stays open is no object. -/
theorem noObject_collapse (h : InArray frames) (tree : Tree) : (collapse tree frames).NoObject := by
  induction frames generalizing tree with
  | nil =>
    obtain ⟨opened, items, hlast⟩ := h
    cases hlast
  | cons frame frames ih =>
    rcases inArray_cons_iff.1 h with ⟨rfl, opened, items, rfl⟩ | hframes
    · exact noObject_shut opened _ none []
    · cases frame with
      | array opened items => exact ih hframes _
      | object opened members name => exact ih hframes _

theorem barred_failValue (h : InArray frames) (tree : Tree) : (failValue tree frames).Barred :=
  noObject_collapse h tree

/-- An array that is closed leaves the outermost array open, or it is this one itself. -/
theorem barred_shut {opened : Position} {items : List Tree}
    (h : InArray (.array opened items :: frames)) (closed : List Tree) :
    (after (shut frames opened (.array closed none)) frames).Barred := by
  rcases inArray_cons_iff.1 h with ⟨rfl, -⟩ | hframes
  · exact .inl ⟨rfl, noObject_shut opened closed none []⟩
  · exact .inr hframes

theorem barred_failItems {opened : Position} {items : List Tree}
    (h : InArray (.array opened items :: frames)) (f : Fault) (read : List Tree) :
    (failItems f opened read frames).Barred := by
  rcases inArray_cons_iff.1 h with ⟨rfl, -⟩ | hframes
  · exact noObject_shut opened _ (some f) []
  · exact noObject_collapse hframes _

theorem barred_failMembers (h : InArray frames) (f : Fault) (opened : Position)
    (members : List (Except Fault String × Tree)) :
    (failMembers f opened members frames).Barred :=
  noObject_collapse h _

theorem barred_feedValue (h : InArray frames) (first : Bool) (t : Token) :
    (feedValue first frames t).Barred := by
  unfold feedValue
  cases t.lexeme with
  | null | bool | number | text => exact .inr h
  | openBracket => exact h.cons _
  | openBrace => exact h
  | closeBracket =>
    rcases frames with _ | ⟨opened, items⟩ | ⟨opened, members, name⟩
    case cons.array =>
      cases first with
      | true => exact barred_shut h _
      | false => exact barred_failValue h _
    all_goals exact barred_failValue h _
  | ending =>
    rcases frames with _ | ⟨opened, items⟩ | ⟨opened, members, name⟩
    case cons.array =>
      cases first with
      | true => exact barred_failItems h _ _
      | false => exact barred_failValue h _
    all_goals exact barred_failValue h _
  | broken | closeBrace | colon | comma | stray => exact barred_failValue h _

theorem barred_feedKey (h : InArray frames) (first : Bool) (opened : Position)
    (members : List (Except Fault String × Tree)) (t : Token) :
    (feedKey first opened members frames t).Barred := by
  unfold feedKey
  generalize t.lexeme = lexeme
  split
  case h_1 => exact h
  case h_2 => exact barred_failValue (h.cons _) _
  case h_3 =>
    cases first with
    | true => exact .inr h
    | false => exact barred_failMembers h _ _ _
  all_goals exact barred_failMembers h _ _ _

theorem barred_feedAfter (h : InArray frames) (tree : Tree) (t : Token) :
    (feedAfter tree frames t).Barred := by
  rcases frames with _ | ⟨opened, items⟩ | ⟨opened, members, name⟩
  case nil =>
    obtain ⟨opened, items, hlast⟩ := h
    cases hlast
  case cons.array outer =>
    simp only [feedAfter]
    generalize t.lexeme = lexeme
    split
    case h_1 => exact h.array _
    case h_2 => exact barred_shut h _
    all_goals exact barred_failItems h _ _
  case cons.object outer =>
    have houter : InArray outer := by simpa [inArray_cons_iff] using h
    simp only [feedAfter]
    generalize t.lexeme = lexeme
    split
    case h_1 => exact houter
    case h_2 => exact .inr houter
    all_goals exact barred_failMembers houter _ _ _

theorem Barred.feed (h : b.Barred) (t : Token) : (b.feed t).Barred := by
  cases b with
  | value first frames => exact barred_feedValue h first t
  | key first opened members frames => exact barred_feedKey h first opened members t
  | colon opened members name frames =>
    rw [Build.feed]
    split
    case h_1 => exact InArray.cons h _
    all_goals exact barred_failValue (InArray.cons h _) _
  | after tree frames =>
    rcases h with ⟨rfl, htree⟩ | hframes
    · rw [Build.feed, feedAfter]
      split <;> exact htree
    · exact barred_feedAfter hframes tree t
  | done => exact h

theorem Barred.foldl_feed (h : b.Barred) (tokens : List Token) :
    (tokens.foldl Build.feed b).Barred := by
  induction tokens generalizing b with
  | nil => exact h
  | cons t tokens ih => exact ih (h.feed t)

/-- Only a brace begins an object. -/
theorem barred_first (h : t.lexeme ≠ .openBrace) : (feedValue false [] t).Barred := by
  unfold feedValue
  cases hlexeme : t.lexeme with
  | null => exact .inl ⟨rfl, Tree.noObject_null⟩
  | bool b => exact .inl ⟨rfl, Tree.noObject_bool b⟩
  | number n => exact .inl ⟨rfl, Tree.noObject_number n⟩
  | text s => exact .inl ⟨rfl, Tree.noObject_text s⟩
  | openBracket => exact inArray_singleton _ _
  | openBrace => exact absurd hlexeme h
  | _ => exact Tree.noObject_of_error rfl

end Build

theorem Document.use_ne_object {b : Build} (h : b.Barred) (fields : JsonObject) :
    (ofBuild b).use ≠ .ok (.obj fields) := by
  cases b with
  | done tree trailing =>
    intro huse
    rw [ofBuild, use] at huse
    cases htree : tree.use with
    | error f => simp [htree, bind, Except.bind] at huse
    | ok value =>
      have hvalue : value ≠ .obj fields := fun hobj => h fields (hobj ▸ htree)
      cases trailing <;>
        simp [htree, Tree.ended, bind, Except.bind, pure, Except.pure, hvalue] at huse
  | _ => rintro ⟨⟩

/-! ## The first token -/

namespace Scan

/-- The machine is in the middle of something that is no bracket. -/
def Begun : Scan → Prop
  | .between => False
  | .word _ _ lexeme => lexeme ≠ .openBrace
  | _ => True

/-- The first of these tokens is no brace. -/
def Opens (ts : List Token) : Prop := ∀ t ∈ ts.head?, t.lexeme ≠ .openBrace

/-- What a step gives begins with no brace, nor does what comes next if it gives nothing. -/
def Leads (result : List Token × Scan) : Prop :=
  Opens result.1 ∧ (result.1 = [] → result.2.Begun)

theorem opens_nil : Opens [] := by
  simp [Opens]

theorem opens_cons {t : Token} (h : t.lexeme ≠ .openBrace) (ts : List Token) : Opens (t :: ts) := by
  simpa [Opens] using h

theorem leads_cons {t : Token} (h : t.lexeme ≠ .openBrace) (ts : List Token) (s : Scan) :
    Leads (t :: ts, s) :=
  ⟨opens_cons h ts, by simp⟩

theorem leads_nil {s : Scan} (h : s.Begun) : Leads ([], s) :=
  ⟨opens_nil, fun _ => h⟩

theorem leads_first (p : Position) {c : Char} (hblank : Text.isBlank c = false)
    (hbrace : c ≠ '\x7b') : Leads (first p c) := by
  unfold first
  split
  case h_1 | h_2 | h_3 | h_4 => cases hblank
  case h_7 => exact absurd rfl hbrace
  case h_11 => exact leads_nil trivial
  case h_12 | h_13 | h_14 => exact leads_nil Lexeme.noConfusion
  case h_15 =>
    split
    · exact leads_nil trivial
    · exact leads_cons Lexeme.noConfusion _ _
  all_goals exact leads_cons Lexeme.noConfusion _ _

theorem Begun.leads_step {s : Scan} (h : s.Begun) (p : Position) (c : Char) :
    Leads (s.step p c) := by
  cases s with
  | between => exact h.elim
  | word start left lexeme =>
    rcases left with _ | ⟨letter, _ | ⟨next, left⟩⟩
    · exact leads_nil trivial
    · simp only [step]
      split
      · exact leads_cons (t := ⟨lexeme, start⟩) h _ _
      · exact leads_cons Lexeme.noConfusion _ _
    · simp only [step]
      split
      · exact leads_nil h
      · exact leads_cons Lexeme.noConfusion _ _
  | numeral start n =>
    simp only [step]
    split
    · exact leads_nil trivial
    · split <;> exact leads_cons Lexeme.noConfusion _ _
  | quoted start q =>
    simp only [step]
    split
    · exact leads_nil trivial
    · exact leads_cons Lexeme.noConfusion _ _
    · exact leads_cons Lexeme.noConfusion _ _
  | done => exact leads_nil trivial

theorem opens_close {s : Scan} (h : s.Begun) (p : Position) : Opens (s.close p) := by
  cases s with
  | between => exact h.elim
  | word | done => simp [close, Opens]
  | numeral start n =>
    rw [close]
    split <;> exact opens_cons Lexeme.noConfusion _
  | quoted start q =>
    rw [close]
    split <;> exact opens_cons Lexeme.noConfusion _

/-- The first tokens come of this step, or of those after it. -/
theorem Leads.opens {s : Scan} {p : Position} {c : Char} {cs : List Char}
    (h : Leads (s.step p c))
    (hrest : (s.step p c).2.Begun → Opens (Token.scanFrom (s.step p c).2 (p.after c) cs)) :
    Opens (Token.scanFrom s p (c :: cs)) := by
  obtain ⟨hopens, hbegun⟩ := h
  simp only [Token.scanFrom]
  cases htokens : (s.step p c).1 with
  | nil => exact hrest (hbegun htokens)
  | cons t ts =>
    rw [htokens] at hopens
    exact hopens

theorem opens_scanFrom {s : Scan} (h : s.Begun) (p : Position) (cs : List Char) :
    Opens (Token.scanFrom s p cs) := by
  induction cs generalizing s p with
  | nil => exact opens_close h p
  | cons c cs ih => exact (h.leads_step p c).opens fun hbegun => ih hbegun _

end Scan

/-- A text that begins with something else than a brace is no object. -/
theorem Json.read_ne_object {c : Char} (hblank : Text.isBlank c = false) (hbrace : c ≠ '\x7b')
    (cs : List Char) (fields : JsonObject) :
    Json.read (String.ofList (c :: cs)) ≠ .ok (.obj fields) := by
  have hopens : Scan.Opens (Token.scan (c :: cs)) :=
    (Scan.leads_first .start hblank hbrace).opens (s := .between)
      fun hbegun => Scan.opens_scanFrom hbegun _ _
  rw [Json.read, Document.ofText, String.toList_ofList, Document.ofTokens]
  cases htokens : Token.scan (c :: cs) with
  | nil => rintro ⟨⟩
  | cons t ts =>
    rw [htokens] at hopens
    exact Document.use_ne_object ((Build.barred_first (hopens t rfl)).foldl_feed ts) fields

/-! ## Where a text begins -/

namespace Layout

theorem exists_digitsOf (n : Nat) : ∃ d ds, digitsOf n = d :: ds ∧ d.isDigit = true := by
  obtain ⟨d, ds, hdigits⟩ := List.exists_cons_of_ne_nil (Nat.toDigits_ne_nil (n := n) (b := 10))
  have hmem : d ∈ Nat.toDigits 10 n := hdigits ▸ List.mem_cons_self
  exact ⟨d, ds, hdigits, Nat.isDigit_of_mem_toDigits (by decide) (by decide) hmem⟩

/-- However a decimal is written, its text begins with a digit. -/
theorem exists_lay (n : Layout) (decimal : Decimal) :
    ∃ d ds, n.lay decimal = d :: ds ∧ d.isDigit = true := by
  obtain ⟨d, ds, hdigits, hd⟩ := exists_digitsOf decimal.digits
  simp only [lay, hdigits]
  split
  · rw [layPositional]
    split
    · exact ⟨d, _, rfl, hd⟩
    · simp only
      split
      · next hfraction =>
        obtain ⟨k, hk⟩ := Nat.exists_eq_add_of_lt hfraction
        have hpos : (d :: ds).length - (-decimal.place).toNat = k + 1 := by omega
        rw [hpos]
        exact ⟨d, _, rfl, hd⟩
      · exact ⟨'0', _, rfl, rfl⟩
  · cases ds <;> exact ⟨d, _, rfl, hd⟩

end Layout

namespace Json

/-- The value is one that is read back from its compact text: free-form, with integers, and nested
no deeper than a text may be. -/
structure Plain (value : Json) : Prop where
  canonical : value.Canonical
  integers : value.IntegersOnly
  shallow : value.depth ≤ Build.depthLimit

/-- The value is structured but no mapping. -/
def Unfit : Json → Prop
  | .bool _ | .num _ | .arr _ => True
  | _ => False

variable {value : Json}

theorem exists_numberChars (n : JsonNumber) :
    ∃ c cs, numberChars n = c :: cs ∧ Text.isBlank c = false ∧ c ≠ '\x7b' := by
  have hdigit : ∀ c : Char, c.isDigit = true → Text.isBlank c = false ∧ c ≠ '\x7b' := by
    intro c hc
    refine ⟨Text.isBlank_of_isDigit hc, ?_⟩
    rintro rfl
    cases hc
  have hreal : ∀ (n : Layout) (f : BinaryFormat) (x : Binary), ∃ c cs,
      (n.write f x).getD ['n', 'u', 'l', 'l'] = c :: cs ∧ Text.isBlank c = false ∧
        c ≠ '\x7b' := by
    intro n f x
    match x with
    | .finite false 0 _ | .finite true 0 _ | .infinite _ | .nan => exact ⟨_, _, rfl, by decide⟩
    | .finite true (m + 1) e => exact ⟨'-', _, rfl, by decide⟩
    | .finite false (m + 1) e =>
      obtain ⟨c, cs, htext, hc⟩ := n.exists_lay (shortest f n.tie (m + 1) e)
      exact ⟨c, cs, htext, hdigit c hc⟩
  cases n with
  | int i =>
    obtain ⟨c, cs, htext, hc⟩ := Layout.exists_digitsOf i.natAbs
    rw [numberChars, intChars]
    split
    · exact ⟨'-', _, rfl, by decide⟩
    · exact ⟨c, cs, htext, hdigit c hc⟩
  | real x => exact hreal _ _ x
  | single x => exact hreal _ _ x

/-- The text of such a value begins with something else than a blank or a brace. -/
theorem Unfit.exists_chars (h : value.Unfit) :
    ∃ c cs, value.chars = c :: cs ∧ Text.isBlank c = false ∧ c ≠ '\x7b' := by
  cases value with
  | null | str | obj => exact h.elim
  | bool b => cases b <;> exact ⟨_, _, rfl, by decide⟩
  | num n =>
    obtain ⟨c, cs, htext, hc⟩ := exists_numberChars n
    exact ⟨c, cs, by rw [chars, htext], hc⟩
  | arr items => exact ⟨'[', _, rfl, by decide⟩

theorem trimChars_intChars (i : Int) : Text.trimChars (intChars i) = intChars i := by
  have hdigits : ∀ c ∈ Layout.digitsOf i.natAbs, Text.isBlank c = false := fun c hc =>
    Text.isBlank_of_isDigit (Nat.isDigit_of_mem_toDigits (by decide) (by decide) hc)
  refine Text.trimChars_of_sober fun c hc => ?_
  rw [intChars] at hc
  split at hc
  · rcases List.mem_cons.1 hc with rfl | hc
    · rfl
    · exact hdigits c hc
  · exact hdigits c hc

/-- The text of such a value has no blanks around it. -/
theorem Unfit.trimChars_chars (h : value.Unfit) (hinteger : value.IntegersOnly) :
    Text.trimChars value.chars = value.chars := by
  cases value with
  | null | str | obj => exact h.elim
  | bool b => cases b <;> rfl
  | num n =>
    cases n with
    | int i => exact trimChars_intChars i
    | real | single => exact hinteger.elim
  | arr items =>
    have htrim := Text.trimChars_around (c := '[') (d := ']') rfl rfl
      (List.forall_mem_nil _) (List.forall_mem_nil _) (itemsChars items)
    simpa [chars] using htrim

end Json

/-! ## Reading what was written -/

namespace Arguments

variable {value : Json} {fields : JsonObject}

theorem write_of_unfit (h : value.Unfit) : write value = String.ofList value.chars := by
  cases value with
  | null | str | obj => exact h.elim
  | _ => rfl

/-- Where there is nothing, there are no arguments. -/
theorem read_write_null : read (write .null) = .ok [] := by
  rw [read, write, if_pos (by decide)]

theorem not_allBlank_of_trim {text : String} {c : Char} {cs : List Char}
    (htrim : Text.trimChars text.toList = c :: cs) : ¬ Text.allBlank text = true := by
  intro hblank
  rw [(Text.trimChars_eq_nil_iff text.toList).2 (List.all_eq_true.1 hblank)] at htrim
  cases htrim

/-- A value that is structured but no mapping is refused. -/
theorem exists_read_write_eq_error (h : value.Unfit) : ∃ e, read (write value) = .error e := by
  obtain ⟨c, cs, hchars, hblank, hbrace⟩ := h.exists_chars
  have htrim : Text.trimChars (write value).toList = c :: Text.trimEnd cs := by
    rw [write_of_unfit h, String.toList_ofList, hchars, Text.trimChars_cons hblank]
  have hobject := Json.read_ne_object hblank hbrace (Text.trimEnd cs)
  rw [read, if_neg (not_allBlank_of_trim htrim), Text.trim, htrim]
  split
  · next fields hread => exact absurd hread (hobject fields)
  · exact ⟨_, rfl⟩
  · exact ⟨_, rfl⟩

/-- It is refused for its kind if its text can be read. -/
theorem read_write_of_unfit (h : value.Unfit) (hplain : value.Plain) :
    read (write value) = .error (.notObject value) := by
  obtain ⟨c, cs, hchars, -, -⟩ := h.exists_chars
  have hread := Json.read_compact hplain.canonical hplain.integers hplain.shallow
  have htrim : Text.trimChars (write value).toList = c :: cs := by
    rw [write_of_unfit h, String.toList_ofList, h.trimChars_chars hplain.integers, hchars]
  rw [Json.compact, hchars] at hread
  rw [read, if_neg (not_allBlank_of_trim htrim), Text.trim, htrim, hread]
  cases value with
  | null | str | obj => exact h.elim
  | _ => rfl

/-- Blanks around the text of an object are removed. -/
theorem trimChars_object {before after : String} (hbefore : Text.allBlank before = true)
    (hafter : Text.allBlank after = true) (fields : JsonObject) :
    Text.trimChars (before ++ write (.obj fields) ++ after).toList = (Json.obj fields).chars := by
  have htrim := Text.trimChars_around (c := '\x7b') (d := '\x7d') rfl rfl
    (List.all_eq_true.1 hbefore) (List.all_eq_true.1 hafter) (Json.fieldsChars fields)
  simpa [write, Json.compact, Json.chars] using htrim

/-- An object is read back, whatever blanks stand around its text. -/
theorem read_write_object {before after : String} (hplain : (Json.obj fields).Plain)
    (hbefore : Text.allBlank before = true) (hafter : Text.allBlank after = true) :
    read (before ++ write (.obj fields) ++ after) = .ok fields := by
  have hread := Json.read_compact hplain.canonical hplain.integers hplain.shallow
  have htrim := trimChars_object hbefore hafter fields
  rw [read, if_neg (not_allBlank_of_trim htrim), Text.trim, htrim]
  rw [Json.compact] at hread
  rw [hread]

theorem read_write_plain (hplain : (Json.obj fields).Plain) :
    read (write (.obj fields)) = .ok fields := by
  have hread : read ("" ++ write (.obj fields) ++ "") = .ok fields :=
    read_write_object hplain rfl rfl
  simpa only [String.empty_append, String.append_empty] using hread

/-- So it is when the text is a final answer. -/
theorem answer_write_object {before after : String} (hplain : (Json.obj fields).Plain)
    (hbefore : Text.allBlank before = true) (hafter : Text.allBlank after = true) :
    Answer.read (before ++ write (.obj fields) ++ after) = fields := by
  have hread := Json.read_compact hplain.canonical hplain.integers hplain.shallow
  rw [Json.compact] at hread
  rw [Answer.read, trimChars_object hbefore hafter fields, Answer.object?, hread]

end Arguments

end AgentLoop
