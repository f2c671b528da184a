import AgentLoop.Proofs.Lexemes
import AgentLoop.Json.Tree

/-!
# Texts that are refused

A text is no value when the machine meets a character that begins no lexeme, or a lexeme that is
broken, before it meets the end.

* `Spoilt tokens`: this happened among the tokens.  `Build.follows_feed` is what one token does to
  the building of a tree, `Build.refused_of_spoilt` what all do, and `Document.use_of_spoilt` says
  that no value comes of them.
* `Scan.run` is the machine over some characters.  As long as it reads on (`Scan.Live`) nothing is
  spoilt and nothing has ended: `Scan.goes_step` is one character, `Scan.goes_run` are many.
* A machine that is not within a text in quotes (`Scan.Outside`) is spoilt by a backtick
  (`spoilt_tick`), one that is within it by a line break or the end (`spoilt_line`, `spoilt_cut`).
* `Json.read_lineTick` and `Json.read_before_tick` say what this comes to for whole texts.
-/

namespace AgentLoop

/-! ## Trees without a value -/

namespace Tree

/-- The tree stands for no value. -/
def Refused (tree : Tree) : Prop := ∃ f, tree.use = .error f

variable {tree : Tree} {items : List Tree} {members : List (Except Fault String × Tree)}

theorem useItems_of_refused (hmem : tree ∈ items) (h : tree.Refused) :
    ∃ f, useItems items = .error f := by
  induction items with
  | nil => cases hmem
  | cons item items ih =>
    rw [useItems]
    cases hitem : item.use with
    | error f => exact ⟨f, rfl⟩
    | ok value =>
      rcases List.mem_cons.1 hmem with rfl | hmem
      · obtain ⟨f, hf⟩ := h
        rw [hf] at hitem
        cases hitem
      · obtain ⟨f, hf⟩ := ih hmem
        rw [hf]
        exact ⟨f, rfl⟩

theorem useMembers_of_refused {name : Except Fault String} (hmem : (name, tree) ∈ members)
    (h : tree.Refused) : ∃ f, useMembers members = .error f := by
  induction members with
  | nil => cases hmem
  | cons member members ih =>
    obtain ⟨key | key, value⟩ := member
    · exact ⟨key, rfl⟩
    rw [useMembers]
    cases hvalue : value.use with
    | error f => exact ⟨f, rfl⟩
    | ok used =>
      rcases List.mem_cons.1 hmem with hsame | hmem
      · obtain ⟨-, rfl⟩ := Prod.mk.inj hsame
        obtain ⟨f, hf⟩ := h
        rw [hf] at hvalue
        cases hvalue
      · obtain ⟨f, hf⟩ := ih hmem
        rw [hf]
        exact ⟨f, rfl⟩

/-- An array is refused with any of its items. -/
theorem refused_array (ending : Option Fault) (hmem : tree ∈ items) (h : tree.Refused) :
    (array items ending).Refused := by
  obtain ⟨f, hf⟩ := useItems_of_refused hmem h
  rw [Refused, use, hf]
  exact ⟨f, rfl⟩

/-- An object is refused with any of its values. -/
theorem refused_object {name : Except Fault String} (ending : Option Fault)
    (hmem : (name, tree) ∈ members) (h : tree.Refused) : (object members ending).Refused := by
  obtain ⟨f, hf⟩ := useMembers_of_refused hmem h
  rw [Refused, use, hf]
  exact ⟨f, rfl⟩

/-- An array that is not properly closed is refused. -/
theorem refused_array_unclosed (items : List Tree) (f : Fault) :
    (array items (some f)).Refused := by
  rw [Refused, use]
  cases useItems items with
  | error earlier => exact ⟨earlier, rfl⟩
  | ok values => exact ⟨f, rfl⟩

/-- So is such an object. -/
theorem refused_object_unclosed (members : List (Except Fault String × Tree)) (f : Fault) :
    (object members (some f)).Refused := by
  rw [Refused, use]
  cases useMembers members with
  | error earlier => exact ⟨earlier, rfl⟩
  | ok fields => exact ⟨f, rfl⟩

end Tree

/-! ## Building without a value -/

/-- What the lexeme stands for can be no part of a value. -/
def Lexeme.spoils : Lexeme → Bool
  | .broken _ _ _ | .stray => true
  | _ => false

/-- Among the tokens is one that spoils the text, and the text does not end before it. -/
inductive Spoilt : List Token → Prop where
  | here {t : Token} (ts : List Token) (h : t.lexeme.spoils = true) : Spoilt (t :: ts)
  | later {t : Token} {ts : List Token} (h : t.lexeme ≠ .ending) (hts : Spoilt ts) :
    Spoilt (t :: ts)

namespace Spoilt

variable {ts us : List Token}

theorem append (h : Spoilt ts) (us : List Token) : Spoilt (ts ++ us) := by
  induction h with
  | here ts h => exact .here (ts ++ us) h
  | later h _ ih => exact .later h ih

/-- Tokens that do not end the text may stand before. -/
theorem behind (hts : ∀ t ∈ ts, t.lexeme ≠ .ending) (h : Spoilt us) : Spoilt (ts ++ us) := by
  induction ts with
  | nil => exact h
  | cons t ts ih =>
    exact .later (hts t List.mem_cons_self) (ih fun u hu => hts u (List.mem_cons_of_mem _ hu))

end Spoilt

namespace Build

/-- Building is over, and what was read is refused. -/
def Refused : Build → Prop
  | .done tree trailing => tree.Refused ∨ trailing.isSome = true
  | _ => False

/-- Building goes on. -/
def Open : Build → Prop
  | .done _ _ => False
  | _ => True

variable {b : Build} {tree : Tree} {t : Token}

theorem refused_shut (outer : List Frame) (opened : Position) (h : tree.Refused) :
    (shut outer opened tree).Refused := by
  rw [shut]
  split
  · exact ⟨_, rfl⟩
  · exact h

theorem refused_collapse (frames : List Frame) (h : tree.Refused) :
    (collapse tree frames).Refused := by
  induction frames generalizing tree with
  | nil => exact h
  | cons frame frames ih =>
    cases frame with
    | array opened items =>
      have hmem : tree ∈ (tree :: items).reverse := by simp
      exact ih (refused_shut frames opened (Tree.refused_array none hmem h))
    | object opened members name =>
      have hmem : (name, tree) ∈ ((name, tree) :: members).reverse := by simp
      exact ih (refused_shut frames opened (Tree.refused_object none hmem h))

theorem refused_failValue (frames : List Frame) (h : tree.Refused) :
    (failValue tree frames).Refused :=
  .inl (refused_collapse frames h)

theorem refused_failItems (f : Fault) (opened : Position) (items : List Tree)
    (frames : List Frame) : (failItems f opened items frames).Refused :=
  .inl (refused_collapse frames (refused_shut frames opened
    (Tree.refused_array_unclosed items.reverse f)))

theorem refused_failMembers (f : Fault) (opened : Position)
    (members : List (Except Fault String × Tree)) (frames : List Frame) :
    (failMembers f opened members frames).Refused :=
  .inl (refused_collapse frames (refused_shut frames opened
    (Tree.refused_object_unclosed members.reverse f)))

/-- What becomes of building at a lexeme that is not the end of the text: it is over and refused, or
it goes on, and goes on only if the lexeme is sound. -/
def Follows (b : Build) (l : Lexeme) : Prop :=
  b.Refused ∨ b.Open ∧ l.spoils = false

theorem follows_feedValue (first : Bool) (frames : List Frame) (t : Token) :
    (feedValue first frames t).Follows t.lexeme := by
  have habsent : ∀ f, (failValue (.absent f) frames).Refused :=
    fun f => refused_failValue frames ⟨f, rfl⟩
  unfold feedValue
  cases t.lexeme with
  | null | bool | number | text | openBracket | openBrace => exact .inr ⟨trivial, rfl⟩
  | broken opening used skipped => exact .inl (refused_failValue frames ⟨used, rfl⟩)
  | closeBracket =>
    rcases frames with _ | ⟨opened, items⟩ | ⟨opened, members, name⟩
    case cons.array =>
      cases first with
      | true => exact .inr ⟨trivial, rfl⟩
      | false => exact .inl (habsent _)
    all_goals exact .inl (habsent _)
  | ending =>
    rcases frames with _ | ⟨opened, items⟩ | ⟨opened, members, name⟩
    case cons.array =>
      cases first with
      | true => exact .inl (refused_failItems ..)
      | false => exact .inl (habsent _)
    all_goals exact .inl (habsent _)
  | closeBrace | colon | comma | stray => exact .inl (habsent _)

theorem follows_feedKey (first : Bool) (opened : Position)
    (members : List (Except Fault String × Tree)) (frames : List Frame) (t : Token) :
    (feedKey first opened members frames t).Follows t.lexeme := by
  have hfail : ∀ f, (failMembers f opened members frames).Refused :=
    fun f => refused_failMembers f opened members frames
  unfold feedKey
  generalize t.lexeme = lexeme
  split
  case h_1 => exact .inr ⟨trivial, rfl⟩
  case h_2 => exact .inl (refused_failValue _ ⟨_, rfl⟩)
  case h_3 =>
    cases first with
    | true => exact .inr ⟨trivial, rfl⟩
    | false => exact .inl (hfail _)
  all_goals exact .inl (hfail _)

/-- After a value only the end of the text leaves a value. -/
theorem follows_feedAfter (tree : Tree) (frames : List Frame) (hending : t.lexeme ≠ .ending) :
    (feedAfter tree frames t).Follows t.lexeme := by
  rcases frames with _ | ⟨opened, items⟩ | ⟨opened, members, name⟩
  case nil =>
    simp only [feedAfter]
    exact .inl (.inr rfl)
  case cons.array outer =>
    simp only [feedAfter]
    generalize t.lexeme = lexeme
    split
    case h_1 | h_2 => exact .inr ⟨trivial, rfl⟩
    all_goals exact .inl (refused_failItems ..)
  case cons.object outer =>
    simp only [feedAfter]
    generalize t.lexeme = lexeme
    split
    case h_1 | h_2 => exact .inr ⟨trivial, rfl⟩
    all_goals exact .inl (refused_failMembers ..)

theorem follows_feed (h : b.Open) (hending : t.lexeme ≠ .ending) :
    (b.feed t).Follows t.lexeme := by
  cases b with
  | value first frames => exact follows_feedValue first frames t
  | key first opened members frames => exact follows_feedKey first opened members frames t
  | colon opened members name frames =>
    rw [feed]
    split
    case h_1 hcolon => exact .inr ⟨trivial, by rw [hcolon]; rfl⟩
    all_goals exact .inl (refused_failValue _ ⟨_, rfl⟩)
  | after tree frames => exact follows_feedAfter tree frames hending
  | done => exact h.elim

theorem Refused.foldl_feed (h : b.Refused) (tokens : List Token) :
    (tokens.foldl feed b).Refused := by
  induction tokens generalizing b with
  | nil => exact h
  | cons t tokens ih =>
    cases b with
    | done => exact ih h
    | _ => exact h.elim

/-- Building over spoilt tokens is refused. -/
theorem refused_of_spoilt {tokens : List Token} (h : Spoilt tokens) (hopen : b.Open) :
    (tokens.foldl feed b).Refused := by
  induction h generalizing b with
  | @here t ts hspoils =>
    have hending : t.lexeme ≠ .ending := by
      intro hl
      rw [hl] at hspoils
      cases hspoils
    rcases follows_feed hopen hending with hrefused | ⟨-, hsound⟩
    · exact hrefused.foldl_feed ts
    · rw [hspoils] at hsound
      cases hsound
  | later hending _ ih =>
    rcases follows_feed hopen hending with hrefused | ⟨hgoes, -⟩
    · exact hrefused.foldl_feed _
    · exact ih hgoes

end Build

/-- Spoilt tokens are no value. -/
theorem Document.use_of_spoilt {tokens : List Token} (h : Spoilt tokens) :
    ∃ f, (Document.ofTokens tokens).use = .error f := by
  have hrefused : (tokens.foldl Build.feed (.value false [])).Refused :=
    Build.refused_of_spoilt h trivial
  rw [ofTokens]
  generalize tokens.foldl Build.feed (.value false []) = b at hrefused
  cases b with
  | done tree trailing =>
    rw [ofBuild, use]
    rcases hrefused with ⟨f, hf⟩ | htrailing
    · exact ⟨f, by rw [hf]; rfl⟩
    · obtain ⟨last, rfl⟩ := Option.isSome_iff_exists.1 htrailing
      cases tree.use with
      | error f => exact ⟨f, rfl⟩
      | ok value => exact ⟨last, rfl⟩
  | _ => exact hrefused.elim

/-! ## Scanning without a value -/

namespace Scan

/-- The tokens of some characters, and what the machine is in the middle of behind them. -/
def run (s : Scan) (p : Position) : List Char → List Token × Scan
  | [] => ([], s)
  | c :: cs =>
    let (tokens, next) := s.step p c
    let (more, last) := next.run (p.after c) cs
    (tokens ++ more, last)

theorem scanFrom_append (s : Scan) (p : Position) (cs ds : List Char) :
    Token.scanFrom s p (cs ++ ds) =
      (s.run p cs).1 ++ Token.scanFrom (s.run p cs).2 (p.past cs) ds := by
  induction cs generalizing s p with
  | nil => rfl
  | cons c cs ih =>
    simp only [List.cons_append, Token.scanFrom, run, ih, List.append_assoc]
    rfl

theorem run_append (s : Scan) (p : Position) (cs ds : List Char) :
    (s.run p (cs ++ ds)).2 = ((s.run p cs).2.run (p.past cs) ds).2 := by
  induction cs generalizing s p with
  | nil => rfl
  | cons c cs ih => exact ih (s.step p c).2 (p.after c)

/-- The machine reads on.  The letters of a word that are still to come are small ones. -/
def Live : Scan → Prop
  | .word _ left lexeme =>
    left ≠ [] ∧ (∀ letter ∈ left, letter.isLower = true) ∧ lexeme ≠ .ending
  | .done => False
  | _ => True

/-- The tokens are spoilt, or the machine reads on and the text has not ended. -/
def Goes (result : List Token × Scan) : Prop :=
  Spoilt result.1 ∨ result.2.Live ∧ ∀ t ∈ result.1, t.lexeme ≠ .ending

theorem goes_first (p : Position) (c : Char) : Goes (first p c) := by
  unfold first
  split
  case h_15 =>
    split
    · exact .inr ⟨trivial, by simp⟩
    · exact .inl (.here [] rfl)
  all_goals exact .inr ⟨by simp [Live], by simp⟩

theorem Goes.append {result : List Token × Scan} {ts : List Token}
    (hts : ∀ t ∈ ts, t.lexeme ≠ .ending) (h : Goes result) : Goes (ts ++ result.1, result.2) := by
  rcases h with hspoilt | ⟨hlive, hending⟩
  · exact .inl (hspoilt.behind hts)
  · refine .inr ⟨hlive, fun t ht => ?_⟩
    rcases List.mem_append.1 ht with ht | ht
    · exact hts t ht
    · exact hending t ht

theorem goes_broken (opening : Char) (used skipped : Fault) (start : Position) :
    Goes ([⟨.broken opening used skipped, start⟩], .done) :=
  .inl (.here [] rfl)

theorem goes_step {s : Scan} (h : s.Live) (p : Position) (c : Char) : Goes (s.step p c) := by
  cases s with
  | between => exact goes_first p c
  | word start left lexeme =>
    obtain ⟨hleft, hlower, hlexeme⟩ := h
    rcases left with _ | ⟨letter, _ | ⟨next, left⟩⟩
    · exact absurd rfl hleft
    · simp only [step]
      split
      · exact .inr ⟨trivial, by simpa using hlexeme⟩
      · exact goes_broken ..
    · simp only [step]
      split
      · have hmore := fun l hl => hlower l (List.mem_cons_of_mem letter hl)
        exact .inr ⟨⟨by simp, hmore, hlexeme⟩, by simp⟩
      · exact goes_broken ..
  | numeral start n =>
    simp only [step]
    split
    · exact .inr ⟨trivial, by simp⟩
    · split
      · have hnumber : ∀ t ∈ [(⟨.number (n.value p), start⟩ : Token)], t.lexeme ≠ .ending := by simp
        exact (goes_first p c).append hnumber
      · exact goes_broken ..
  | quoted start q =>
    simp only [step]
    split
    · exact .inr ⟨trivial, by simp⟩
    · exact .inr ⟨trivial, by simp⟩
    · exact goes_broken ..
  | done => exact h.elim

theorem goes_run {s : Scan} (h : s.Live) (p : Position) (cs : List Char) : Goes (s.run p cs) := by
  induction cs generalizing s p with
  | nil => exact .inr ⟨h, by simp [run]⟩
  | cons c cs ih =>
    rcases goes_step h p c with hspoilt | ⟨hlive, hending⟩
    · exact .inl (hspoilt.append _)
    · exact (ih hlive (p.after c)).append hending

/-! ## Outside texts in quotes -/

/-- The machine is not within a text. -/
def Outside : Scan → Prop
  | .quoted _ _ => False
  | _ => True

theorem outside_first (p : Position) {c : Char} (hc : c ≠ '"') : (first p c).2.Outside := by
  unfold first
  split
  case h_11 => exact absurd rfl hc
  case h_15 => split <;> trivial
  all_goals trivial

/-- Only a quote begins a text. -/
theorem Outside.step {s : Scan} (h : s.Outside) (p : Position) {c : Char} (hc : c ≠ '"') :
    (s.step p c).2.Outside := by
  cases s with
  | between => exact outside_first p hc
  | word start left lexeme =>
    rcases left with _ | ⟨letter, _ | ⟨next, left⟩⟩
    · trivial
    all_goals
      simp only [Scan.step]
      split <;> trivial
  | numeral start n =>
    simp only [Scan.step]
    split
    · trivial
    · split
      · exact outside_first p hc
      · trivial
  | quoted => exact h.elim
  | done => trivial

theorem Outside.run {s : Scan} (h : s.Outside) (p : Position) {cs : List Char}
    (hcs : ∀ c ∈ cs, c ≠ '"') : (s.run p cs).2.Outside := by
  induction cs generalizing s p with
  | nil => exact h
  | cons c cs ih =>
    have hstep := h.step p (hcs c List.mem_cons_self)
    exact ih hstep (p.after c) fun d hd => hcs d (List.mem_cons_of_mem c hd)

theorem next_tick (n : Numeral) (p : Position) : n.next p '`' = none := by
  have hdigit : isDigit '`' = false := rfl
  unfold Numeral.next
  cases n.part <;> simp [hdigit]

/-- A backtick belongs to no lexeme but a text. -/
theorem spoilt_tick {s : Scan} (hlive : s.Live) (hout : s.Outside) (p : Position) :
    Spoilt (s.step p '`').1 := by
  cases s with
  | between => exact .here [] rfl
  | word start left lexeme =>
    obtain ⟨hleft, hlower, -⟩ := hlive
    have hother : ∀ letter ∈ left, '`' ≠ letter := by
      rintro letter hletter rfl
      exact absurd (hlower _ hletter) (by decide)
    rcases left with _ | ⟨letter, _ | ⟨next, left⟩⟩
    · exact absurd rfl hleft
    all_goals
      simp only [step, if_neg (hother letter List.mem_cons_self)]
      exact .here [] rfl
  | numeral start n =>
    simp only [step, next_tick]
    split
    · exact .later (by simp) (.here [] rfl)
    · exact .here [] rfl
  | quoted => exact hout.elim
  | done => exact hlive.elim

/-! ## Within texts in quotes -/

/-- A text that is not closed is spoilt by the end. -/
theorem spoilt_cut (start : Position) (q : Quoted) (p : Position) :
    Spoilt ((quoted start q).close p) := by
  simp only [close]
  split <;> exact .here [] rfl

theorem spoilt_of_broken {start p : Position} {q : Quoted} {c : Char} {cs : List Char}
    {used skipped : Fault} (h : q.step p c = .broken used skipped) :
    Spoilt (Token.scanFrom (.quoted start q) p (c :: cs)) := by
  simp only [Token.scanFrom, step, h]
  exact .here _ rfl

theorem spoilt_of_blame {start p : Position} {q q' : Quoted} {c : Char} {cs : List Char} {f : Fault}
    (h : q.step p c = q'.blame f) : Spoilt (Token.scanFrom (.quoted start q) p (c :: cs)) := by
  unfold Quoted.blame at h
  split at h <;> exact spoilt_of_broken h

theorem spoilt_of_goOn {start p : Position} {q q' : Quoted} {c : Char} {cs : List Char}
    (h : q.step p c = .goOn q')
    (hspoilt : Spoilt (Token.scanFrom (.quoted start q') (p.after c) cs)) :
    Spoilt (Token.scanFrom (.quoted start q) p (c :: cs)) := by
  simpa only [Token.scanFrom, step, h, List.nil_append] using hspoilt

/-- A hexadecimal escape with a character that is no digit goes on as such, or is blamed. -/
theorem stepHex_invalid (q : Quoted) (p : Position) (c : Char) (value left : Nat) :
    (∃ value' left', q.stepHex p c value left false =
        .goOn { q with mode := .hex value' left' false }) ∨
      ∃ f, q.stepHex p c value left false = q.blame f := by
  unfold Quoted.stepHex
  split
  · dsimp only
    split
    · exact .inl ⟨_, _, rfl⟩
    · exact .inr ⟨_, rfl⟩
  · split
    · exact .inl ⟨_, _, rfl⟩
    · exact .inr ⟨_, rfl⟩

/-- It is never mended. -/
theorem spoilt_invalidHex (start p : Position) (chars : Except Fault (List Char))
    (lead : Option Nat) (value left : Nat) (cs : List Char) :
    Spoilt (Token.scanFrom (.quoted start ⟨.hex value left false, chars, lead⟩) p cs) := by
  induction cs generalizing p value left with
  | nil => exact spoilt_cut start _ p
  | cons c cs ih =>
    rcases stepHex_invalid ⟨.hex value left false, chars, lead⟩ p c value left with
      ⟨value', left', hgoes⟩ | ⟨f, hblame⟩
    · exact spoilt_of_goOn hgoes (ih (p.after c) value' left')
    · exact spoilt_of_blame hblame

/-- No text in quotes goes over a line break. -/
theorem spoilt_line (start p : Position) (q : Quoted) (cs : List Char) :
    Spoilt (Token.scanFrom (.quoted start q) p ('\n' :: cs)) := by
  obtain ⟨mode, chars, lead⟩ := q
  cases mode with
  | plain =>
    have hblame : Quoted.step ⟨.plain, chars, lead⟩ p '\n' =
        (Quoted.settle ⟨.plain, chars, lead⟩ (p.report '\n')).blame
          ⟨.controlCharacter, p.report '\n'⟩ := rfl
    exact spoilt_of_blame hblame
  | escape =>
    have hblame : Quoted.step ⟨.escape, chars, lead⟩ p '\n' =
        (Quoted.settle ⟨.escape, chars, lead⟩ (p.report '\n')).blame
          ⟨.invalidEscape, p.report '\n'⟩ := rfl
    exact spoilt_of_blame hblame
  | hex value left valid =>
    have hdigit : hexValue? '\n' = none := rfl
    by_cases hleft : '\n'.utf8Size < left
    · have hgoes : Quoted.step ⟨.hex value left valid, chars, lead⟩ p '\n' =
          .goOn ⟨.hex value (left - '\n'.utf8Size) false, chars, lead⟩ := by
        simp only [Quoted.step, Quoted.stepHex, hdigit, if_pos hleft]
      exact spoilt_of_goOn hgoes (spoilt_invalidHex start _ chars lead value _ cs)
    · have hblame : Quoted.step ⟨.hex value left valid, chars, lead⟩ p '\n' =
          Quoted.blame ⟨.hex value left valid, chars, lead⟩
            ⟨.invalidEscape, p.within '\n' left⟩ := by
        simp only [Quoted.step, Quoted.stepHex, hdigit, if_neg hleft]
      exact spoilt_of_blame hblame

/-- A line that begins with a backtick spoils the text, wherever the machine is. -/
theorem spoilt_lineTick {s : Scan} (h : s.Live) (p : Position) (cs : List Char) :
    Spoilt (Token.scanFrom s p ('\n' :: '`' :: cs)) := by
  by_cases hout : s.Outside
  · rcases goes_step h p '\n' with hspoilt | ⟨hlive, hending⟩
    · exact hspoilt.append _
    · have hnext := hout.step p (by decide : '\n' ≠ '"')
      exact .behind hending ((spoilt_tick hlive hnext _).append _)
  · cases s with
    | quoted start q => exact spoilt_line start p q ('`' :: cs)
    | _ => exact absurd trivial hout

/-- A text is spoilt by what comes behind some characters, if the machine reads on till then. -/
theorem spoilt_scan {cs ds : List Char}
    (h : ∀ p, (between.run .start cs).2.Live →
      Spoilt (Token.scanFrom (between.run .start cs).2 p ds)) :
    Spoilt (Token.scan (cs ++ ds)) := by
  rw [Token.scan, scanFrom_append]
  rcases goes_run (s := .between) trivial .start cs with hspoilt | ⟨hlive, hending⟩
  · exact hspoilt.append _
  · exact .behind hending (h _ hlive)

end Scan

/-! ## What is no JSON text -/

namespace Json

/-- A text is refused when the machine finds it spoilt. -/
theorem read_of_spoilt {cs : List Char} (h : Spoilt (Token.scan cs)) :
    ∃ f, read (String.ofList cs) = .error f := by
  rw [read, Document.ofText, String.toList_ofList]
  exact Document.use_of_spoilt h

/-- No JSON text has a line that begins with a backtick. -/
theorem read_lineTick (before after : List Char) :
    ∃ f, read (String.ofList (before ++ '\n' :: '`' :: after)) = .error f :=
  read_of_spoilt (Scan.spoilt_scan fun p hlive => Scan.spoilt_lineTick hlive p after)

/-- What ends within a text in quotes is no JSON text. -/
theorem read_of_not_outside {cs : List Char}
    (h : ¬ (Scan.between.run .start cs).2.Outside) : ∃ f, read (String.ofList cs) = .error f := by
  refine read_of_spoilt ?_
  rw [← List.append_nil cs]
  refine Scan.spoilt_scan fun p _ => ?_
  generalize (Scan.between.run .start cs).2 = s at h
  cases s with
  | quoted start q => exact Scan.spoilt_cut start q p
  | _ => exact absurd trivial h

/-- A backtick in a JSON text stands in a text in quotes. -/
theorem not_outside_of_read {cs rest : List Char} {value : Json}
    (h : read (String.ofList (cs ++ '`' :: rest)) = .ok value) :
    ¬ (Scan.between.run .start cs).2.Outside := by
  intro hout
  have hspoilt : Spoilt (Token.scan (cs ++ '`' :: rest)) :=
    Scan.spoilt_scan fun p hlive => (Scan.spoilt_tick hlive hout p).append _
  obtain ⟨f, hf⟩ := read_of_spoilt hspoilt
  rw [hf] at h
  cases h

/-- What stands before a backtick in a JSON text is no JSON text, nor is it without some of the
characters at its end, unless a quote is among them. -/
theorem read_before_tick {cs dropped rest : List Char} {value : Json}
    (h : read (String.ofList (cs ++ dropped ++ '`' :: rest)) = .ok value)
    (hdropped : ∀ c ∈ dropped, c ≠ '"') : ∃ f, read (String.ofList cs) = .error f := by
  refine read_of_not_outside fun hout => not_outside_of_read h ?_
  rw [Scan.run_append]
  exact hout.run _ hdropped

end Json

end AgentLoop
