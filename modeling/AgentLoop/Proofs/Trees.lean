import AgentLoop.Proofs.Lexemes
import AgentLoop.Json.Tree
import Mathlib.Data.List.Induction

/-!
# Written values are read back

The tree of a written value is the tree of that value, if it is nested no deeper than a text may be.
A free-form value with integers is what its tree is used as.

* `Build.Takes b ls b'` says that lexemes lead from one point of building to another.
  `takes_value` is the induction over a value.
* `ofText_compact` and `ofText_pretty`: both texts of a value have its tree.
* `use_ofJson`: the value of the tree of a canonical value is that value.  With it `read_compact`
  says that a canonical value with integers is read back from its text.
-/

namespace AgentLoop

namespace Build

/-! ## Building -/

/-- However these lexemes are placed, feeding them leads from the one point to the other. -/
def Takes (b : Build) (ls : List Lexeme) (b' : Build) : Prop :=
  ∀ (tokens : List Token) (more : List Lexeme), tokens.map Token.lexeme = ls ++ more →
    ∃ others : List Token, others.map Token.lexeme = more ∧
      tokens.foldl feed b = others.foldl feed b'

variable {b b' b'' : Build} {l : Lexeme} {ls ls' : List Lexeme}

theorem takes_nil : Takes b [] b :=
  fun tokens _ h => ⟨tokens, h, rfl⟩

/-- The first lexeme leads to a point that may depend on its place. -/
theorem takes_cons (h : ∀ t : Token, t.lexeme = l → Takes (b.feed t) ls b') :
    Takes b (l :: ls) b' := by
  intro tokens more htokens
  obtain ⟨t, tokens, rfl, ht, htokens⟩ := List.map_eq_cons_iff.1 htokens
  exact h t ht tokens more htokens

theorem takes_one (h : ∀ t : Token, t.lexeme = l → b.feed t = b') : Takes b [l] b' :=
  takes_cons fun t ht => by
    rw [h t ht]
    exact takes_nil

theorem Takes.append (h : Takes b ls b') (h' : Takes b' ls' b'') : Takes b (ls ++ ls') b'' := by
  intro tokens more htokens
  rw [List.append_assoc] at htokens
  obtain ⟨others, hothers, hfold⟩ := h tokens _ htokens
  obtain ⟨rest, hrest, hfold'⟩ := h' others more hothers
  exact ⟨rest, hrest, hfold.trans hfold'⟩

theorem shut_of_lt {frames : List Frame} (h : frames.length < depthLimit) (opened : Position)
    (tree : Tree) : shut frames opened tree = tree :=
  if_neg (Nat.ne_of_lt h)

/-- A key and its colon lead to the value of the key. -/
theorem takes_key (name : String) (first : Bool) (opened : Position)
    (before : List (Except Fault String × Tree)) (frames : List Frame) :
    Takes (.key first opened before frames) [.text (.ok name), .colon]
      (.value false (.object opened before (.ok name) :: frames)) := by
  refine takes_cons fun t ht => takes_one fun t' ht' => ?_
  simp [feed, feedKey, ht, ht']

mutual

/-- The lexemes of a value that is not nested too deeply lead to its tree. -/
theorem takes_value : ∀ (value : Json) (first : Bool) (frames : List Frame),
    value.depth + frames.length ≤ depthLimit →
    Takes (.value first frames) value.lexemes (.after (.ofJson value) frames)
  | .null, first, frames, _ => takes_one fun t ht => by simp [feed, feedValue, ht, Tree.ofJson]
  | .bool b, first, frames, _ => takes_one fun t ht => by simp [feed, feedValue, ht, Tree.ofJson]
  | .num n, first, frames, _ => takes_one fun t ht => by simp [feed, feedValue, ht, Tree.ofJson]
  | .str s, first, frames, _ => takes_one fun t ht => by simp [feed, feedValue, ht, Tree.ofJson]
  | .arr items, first, frames, hdepth => by
    rw [Json.depth] at hdepth
    refine takes_cons fun t ht => ?_
    have hopen : (Build.value first frames).feed t =
        .value true (.array t.position [] :: frames) := by
      simp [feed, feedValue, ht]
    rw [hopen, Tree.ofJson]
    exact takes_items items true t.position [] frames (fun _ => rfl) (by omega)
  | .obj fields, first, frames, hdepth => by
    rw [Json.depth] at hdepth
    refine takes_cons fun t ht => ?_
    have hopen : (Build.value first frames).feed t = .key true t.position [] frames := by
      simp [feed, feedValue, ht]
    rw [hopen, Tree.ofJson]
    exact takes_fields fields true t.position [] frames (fun _ => rfl) (by omega)

theorem takes_items : ∀ (items : List Json) (first : Bool) (opened : Position) (before : List Tree)
    (frames : List Frame), (items = [] → first = true) →
    Json.depthItems items + 1 + frames.length ≤ depthLimit →
    Takes (.value first (.array opened before :: frames))
      (Json.itemsLexemes items ++ [.closeBracket])
      (.after (.array (before.reverse ++ Tree.ofItems items) none) frames)
  | [], first, opened, before, frames, hfirst, hdepth => by
    obtain rfl := hfirst rfl
    have hroom : frames.length < depthLimit := by omega
    refine takes_one fun t ht => ?_
    simp [feed, feedValue, ht, shut_of_lt hroom, Tree.ofItems]
  | [item], first, opened, before, frames, _, hdepth => by
    rw [Json.depthItems] at hdepth
    have hroom : frames.length < depthLimit := by omega
    have hitem := takes_value item first (.array opened before :: frames)
      (by simp only [List.length_cons]; omega)
    refine hitem.append (takes_one fun t ht => ?_)
    simp [feed, feedAfter, ht, shut_of_lt hroom, Tree.ofItems]
  | item :: next :: items, first, opened, before, frames, _, hdepth => by
    rw [Json.depthItems] at hdepth
    have hitem := takes_value item first (.array opened before :: frames)
      (by simp only [List.length_cons]; omega)
    have hcomma : Takes (.after (.ofJson item) (.array opened before :: frames)) [.comma]
        (.value false (.array opened (.ofJson item :: before) :: frames)) :=
      takes_one fun t ht => by simp [feed, feedAfter, ht]
    have hitems := takes_items (next :: items) false opened (.ofJson item :: before) frames
      (by simp) (by omega)
    have hall := hitem.append (hcomma.append hitems)
    simpa [Json.itemsLexemes, Tree.ofItems] using hall

theorem takes_fields : ∀ (fields : List (String × Json)) (first : Bool) (opened : Position)
    (before : List (Except Fault String × Tree)) (frames : List Frame),
    (fields = [] → first = true) → Json.depthFields fields + 1 + frames.length ≤ depthLimit →
    Takes (.key first opened before frames) (Json.fieldsLexemes fields ++ [.closeBrace])
      (.after (.object (before.reverse ++ Tree.ofFields fields) none) frames)
  | [], first, opened, before, frames, hfirst, hdepth => by
    obtain rfl := hfirst rfl
    have hroom : frames.length < depthLimit := by omega
    refine takes_one fun t ht => ?_
    simp [feed, feedKey, ht, shut_of_lt hroom, Tree.ofFields]
  | [(name, v)], first, opened, before, frames, _, hdepth => by
    rw [Json.depthFields] at hdepth
    have hroom : frames.length < depthLimit := by omega
    have hvalue := takes_value v false (.object opened before (.ok name) :: frames)
      (by simp only [List.length_cons]; omega)
    refine (takes_key name first opened before frames).append (hvalue.append ?_)
    refine takes_one fun t ht => ?_
    simp [feed, feedAfter, ht, shut_of_lt hroom, Tree.ofFields]
  | (name, v) :: next :: fields, first, opened, before, frames, _, hdepth => by
    rw [Json.depthFields] at hdepth
    have hvalue := takes_value v false (.object opened before (.ok name) :: frames)
      (by simp only [List.length_cons]; omega)
    have hcomma : Takes (.after (.ofJson v) (.object opened before (.ok name) :: frames)) [.comma]
        (.key false opened ((.ok name, .ofJson v) :: before) frames) :=
      takes_one fun t ht => by simp [feed, feedAfter, ht]
    have hfields := takes_fields (next :: fields) false opened ((.ok name, .ofJson v) :: before)
      frames (by simp) (by omega)
    have hall := (takes_key name first opened before frames).append
      (hvalue.append (hcomma.append hfields))
    simpa [Json.fieldsLexemes, Tree.ofFields] using hall

end

end Build

/-! ## Texts of values -/

/-- Tokens with the lexemes of a value, and the end of the text, are the document of that value. -/
theorem ofTokens_of_lexemes {value : Json} {tokens : List Token}
    (htokens : tokens.map Token.lexeme = value.lexemes ++ [.ending])
    (hdepth : value.depth ≤ Build.depthLimit) :
    Document.ofTokens tokens = ⟨.ofJson value, none⟩ := by
  obtain ⟨others, hothers, hfold⟩ :=
    Build.takes_value value false [] hdepth tokens [.ending] htokens
  obtain ⟨t, rfl, ht⟩ := List.map_eq_singleton_iff.1 hothers
  rw [Document.ofTokens, hfold]
  simp [Build.feed, Build.feedAfter, ht, Document.ofBuild]

theorem ofText_of_reads {value : Json} {cs : List Char} (h : Scan.Reads cs [] value.lexemes)
    (hdepth : value.depth ≤ Build.depthLimit) :
    Document.ofText (String.ofList cs) = ⟨.ofJson value, none⟩ := by
  refine ofTokens_of_lexemes ?_ hdepth
  have hread := h .start
  rw [List.append_nil] at hread
  rw [String.toList_ofList]
  exact hread

/-- The compact text of a value has the tree of the value. -/
theorem ofText_compact {value : Json} (hwhole : value.Whole)
    (hdepth : value.depth ≤ Build.depthLimit) :
    Document.ofText value.compact = ⟨.ofJson value, none⟩ :=
  ofText_of_reads (Scan.reads_chars value [] hwhole Scan.breaks_nil) hdepth

/-- So has its text over lines. -/
theorem ofText_pretty {value : Json} (hwhole : value.Whole)
    (hdepth : value.depth ≤ Build.depthLimit) :
    Document.ofText value.pretty = ⟨.ofJson value, none⟩ :=
  ofText_of_reads (Scan.reads_prettyChars value 0 [] hwhole Scan.breaks_nil) hdepth

/-! ## Free-form values -/

namespace Keyed

variable {α : Type}

/-- A key behind all others is put at the end. -/
theorem insert_of_lt {key : String} {value : α} {m : Keyed α} (h : ∀ entry ∈ m, entry.1 < key) :
    insert key value m = m ++ [(key, value)] := by
  induction m with
  | nil => rfl
  | cons entry m ih =>
    obtain ⟨k, v⟩ := entry
    have hk : k < key := h (k, v) List.mem_cons_self
    rw [insert, if_neg (String.lt_asymm hk), if_pos hk,
      ih fun entry hentry => h entry (List.mem_cons_of_mem _ hentry), List.cons_append]

/-- A mapping is made of its own entries. -/
theorem ofList_of_sorted {m : Keyed α} (h : Sorted m) : ofList m = m := by
  induction m using List.reverseRecOn with
  | nil => rfl
  | append_singleton m entry ih =>
    obtain ⟨hm, -, hlast⟩ := List.pairwise_append.1 h
    have hbefore : ofList m = m := ih hm
    rw [ofList, List.foldl_append, ← ofList, hbefore]
    exact insert_of_lt fun other hother => hlast other hother entry List.mem_cons_self

end Keyed

namespace Tree

mutual

theorem use_ofJson : ∀ value : Json, value.Canonical → (ofJson value).use = .ok value
  | .null, _ => rfl
  | .bool _, _ => rfl
  | .num _, _ => rfl
  | .str _, _ => rfl
  | .arr items, h => by
    rw [ofJson, use, use_ofItems items h]
    rfl
  | .obj fields, h => by
    rw [ofJson, use, use_ofFields fields h.2]
    exact congrArg (fun fields => Except.ok (Json.obj fields)) (Keyed.ofList_of_sorted h.1)

theorem use_ofItems : ∀ items : List Json, Json.CanonicalItems items →
    useItems (ofItems items) = .ok items
  | [], _ => rfl
  | item :: items, h => by
    rw [ofItems, useItems, use_ofJson item h.1, use_ofItems items h.2]
    rfl

theorem use_ofFields : ∀ fields : List (String × Json), Json.CanonicalFields fields →
    useMembers (ofFields fields) = .ok fields
  | [], _ => rfl
  | (key, value) :: fields, h => by
    rw [ofFields, useMembers, use_ofJson value h.1, use_ofFields fields h.2]
    rfl

end

end Tree

namespace Json

mutual

theorem whole_of_canonical : ∀ value : Json, value.Canonical → value.IntegersOnly → value.Whole
  | .null, _, _ => trivial
  | .bool _, _, _ => trivial
  | .num (.int _), h, _ => h
  | .num (.real _), _, h => h
  | .num (.single _), h, _ => h
  | .str _, _, _ => trivial
  | .arr items, h, hint => wholeItems_of_canonical items h hint
  | .obj fields, h, hint => wholeFields_of_canonical fields h.2 hint

theorem wholeItems_of_canonical : ∀ items : List Json, CanonicalItems items →
    IntegersOnlyItems items → WholeItems items
  | [], _, _ => trivial
  | item :: items, h, hint =>
    ⟨whole_of_canonical item h.1 hint.1, wholeItems_of_canonical items h.2 hint.2⟩

theorem wholeFields_of_canonical : ∀ fields : List (String × Json), CanonicalFields fields →
    IntegersOnlyFields fields → WholeFields fields
  | [], _, _ => trivial
  | (_, value) :: fields, h, hint =>
    ⟨whole_of_canonical value h.1 hint.1, wholeFields_of_canonical fields h.2 hint.2⟩

end

/-- A free-form value with integers is read back from its text. -/
theorem read_compact {value : Json} (hcanonical : value.Canonical) (hint : value.IntegersOnly)
    (hdepth : value.depth ≤ Build.depthLimit) : read value.compact = .ok value := by
  rw [read, ofText_compact (whole_of_canonical value hcanonical hint) hdepth, Document.use,
    Tree.use_ofJson value hcanonical]
  rfl

end Json

end AgentLoop
