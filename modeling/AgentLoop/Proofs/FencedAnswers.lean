import AgentLoop.Answer
import AgentLoop.Proofs.Rejections
import AgentLoop.Proofs.Trees
import AgentLoop.Proofs.Trimming

/-!
# Answers in a fenced block

An object with integers that stands compactly in the first fenced block of an answer is what the
answer is read as, unless the object itself holds a fence.  The closing fence is the first one after
the line of the opening one, be it inside a text in quotes.  There the block is cut within that
text, so it is no object, and the answer is taken for plain text.

* `fencedText` is the answer, `fenced?_lines` finds its block.
* `object?_fencedText`: an answer with a fenced block is no object as a whole.
* `read_fencedText` and `read_fencedText_of_fence` are the two cases, `read_fencedText_eq_iff` says
  which of them recovers the object.
-/

namespace AgentLoop.Answer

open Text

/-- An object in a fenced block: what comes before the block, the tag on the line of its opening
fence, the object, and what comes behind the block. -/
def fencedText (lead tag : String) (fields : JsonObject) (trail : String) : String :=
  lead ++ "```" ++ tag ++ "\n" ++ (Json.obj fields).compact ++ "\n```" ++ trail

variable {lead tag trail : String} {fields : JsonObject}

theorem toList_fencedText (lead tag : String) (fields : JsonObject) (trail : String) :
    (fencedText lead tag fields trail).toList =
      lead.toList ++ fence ++ tag.toList ++
        '\n' :: ((Json.obj fields).chars ++ '\n' :: fence ++ trail.toList) := by
  simp [fencedText, fence, Json.compact]

theorem isBlank_brace : isBlank '\x7b' = false := rfl

theorem isBlank_tick : isBlank '`' = false := rfl

theorem object?_of_error {cs : List Char} (h : ∃ f, Json.read (String.ofList cs) = .error f) :
    object? cs = none := by
  obtain ⟨f, hf⟩ := h
  rw [object?, hf]

/-! ## The answer as a whole -/

/-- The closing fence begins a line, and no JSON text has such a line. -/
theorem object?_fencedText (lead tag : String) (fields : JsonObject) (trail : String) :
    object? (trimChars (fencedText lead tag fields trail).toList) = none := by
  have hmem : ∃ b ∈ lead.toList ++ fence ++ tag.toList ++ '\n' :: (Json.obj fields).chars,
      isBlank b = false :=
    ⟨'`', by simp [fence], isBlank_tick⟩
  have hmem' : ∃ b ∈ lead.toList ++ fence ++ tag.toList ++ '\n' :: (Json.obj fields).chars ++
      ['\n'], isBlank b = false := by
    obtain ⟨b, hb, hblank⟩ := hmem
    exact ⟨b, List.mem_append_left _ hb, hblank⟩
  have hshape : (fencedText lead tag fields trail).toList =
      (lead.toList ++ fence ++ tag.toList ++ '\n' :: (Json.obj fields).chars ++ ['\n']) ++
        '`' :: ('`' :: '`' :: trail.toList) := by
    simp [toList_fencedText, fence]
  rw [hshape, trimChars_append_cons isBlank_tick hmem', trimStart_append hmem, List.append_assoc,
    List.singleton_append]
  exact object?_of_error (Json.read_lineTick _ _)

/-! ## The block -/

theorem fence_eq : fence = List.replicate 3 '`' := rfl

/-- A fence behind characters without one is cut out with the backticks at the end of these taken
for its own. -/
theorem cut?_fence {cs : List Char} (h : ¬ fence <:+: cs) (rest : List Char) :
    ∃ before k, cs = before ++ List.replicate k '`' ∧
      cut? fence (cs ++ fence ++ rest) = some (before, List.replicate k '`' ++ rest) := by
  rw [fence_eq] at h ⊢
  exact cut?_replicate h rest

/-- The block reaches from the line of the first fence to the next fence. -/
theorem fenced?_lines {lead tag body block rest : List Char} (hlead : ¬ fence <:+: lead)
    (htag : '\n' ∉ tag) (hblock : cut? fence body = some (block, rest)) :
    fenced? (lead ++ fence ++ tag ++ '\n' :: body) = some (trimChars block) := by
  obtain ⟨before, k, -, hopen⟩ := cut?_fence hlead (tag ++ '\n' :: body)
  have hline : '\n' ∉ List.replicate k '`' ++ tag := by
    simp [htag]
  have hbody := cut?_singleton hline body
  rw [List.append_assoc] at hbody
  rw [List.append_assoc, fenced?, hopen]
  simp [hbody, hblock]

/-- Without a fence in it a line is cut off at its end. -/
theorem cut?_line {cs : List Char} (h : ¬ fence <:+: cs) (rest : List Char) :
    cut? fence (cs ++ '\n' :: fence ++ rest) = some (cs ++ ['\n'], rest) := by
  have hline : ¬ fence <:+: cs ++ ['\n'] := by
    intro hinner
    rcases List.infix_concat_iff.1 hinner with ⟨before, hbefore⟩ | hinner
    · have hlast := congrArg List.getLast? hbefore
      simp [fence] at hlast
    · exact h hinner
  obtain ⟨before, k, hbefore, hcut⟩ := cut?_fence hline rest
  have hk : k = 0 := by
    by_contra hk
    obtain ⟨j, rfl⟩ := Nat.exists_eq_succ_of_ne_zero hk
    have hlast := congrArg List.getLast? hbefore
    simp [List.replicate_succ'] at hlast
  subst hk
  rw [List.replicate_zero, List.append_nil] at hbefore
  rw [List.append_assoc cs, List.singleton_append] at hcut
  rw [hcut, hbefore]
  rfl

/-- An object that is read back from its own text is read from its block. -/
theorem object?_block (hread : Json.read (Json.obj fields).compact = .ok (.obj fields)) :
    object? (trimChars ((Json.obj fields).chars ++ ['\n'])) = some fields := by
  have hkept : trimChars ((Json.obj fields).chars ++ ['\n']) = (Json.obj fields).chars := by
    have hbraces : (Json.obj fields).chars ++ ['\n'] =
        ('\x7b' :: Json.fieldsChars fields) ++ '\x7d' :: ['\n'] := by
      simp [Json.chars]
    rw [hbraces, trimChars_append_cons rfl ⟨'\x7b', List.mem_cons_self, isBlank_brace⟩]
    rfl
  rw [Json.compact] at hread
  rw [hkept, object?, hread]

/-- An object that is cut at a fence in it ends within a text in quotes. -/
theorem object?_cut {before rest : List Char}
    (hread : Json.read (Json.obj fields).compact = .ok (.obj fields))
    (hcut : cut? fence (Json.obj fields).chars = some (before, rest)) :
    object? (trimChars before) = none := by
  have hchars : (Json.obj fields).chars = before ++ '`' :: ('`' :: '`' :: rest) := by
    rw [eq_of_cut? hcut, List.append_assoc]
    rfl
  obtain _ | ⟨c, before⟩ := before
  · cases hchars
  have hopen : c = '\x7b' := by
    rw [Json.chars] at hchars
    exact (List.cons.inj hchars).1.symm
  subst hopen
  obtain ⟨blanks, hbefore, hblanks⟩ := exists_blanks before
  have hshape : (Json.obj fields).chars =
      '\x7b' :: trimEnd before ++ blanks ++ '`' :: ('`' :: '`' :: rest) := by
    rw [List.cons_append, ← hbefore, hchars]
  rw [Json.compact, hshape] at hread
  rw [trimChars_cons isBlank_brace]
  refine object?_of_error (Json.read_before_tick hread ?_)
  rintro c hc rfl
  exact absurd (hblanks _ hc) (by decide)

/-! ## Reading the answer -/

/-- What the block stands for is the answer, and the whole text is if the block is no object. -/
theorem read_of_block {block rest : List Char} (trail : String) (hlead : ¬ fence <:+: lead.toList)
    (htag : '\n' ∉ tag.toList)
    (hblock : cut? fence ((Json.obj fields).chars ++ '\n' :: fence ++ trail.toList) =
      some (block, rest)) :
    read (fencedText lead tag fields trail) =
      (object? (trimChars block)).getD [(defaultKey, .str (fencedText lead tag fields trail))] := by
  have hfenced : fenced? (fencedText lead tag fields trail).toList = some (trimChars block) := by
    rw [toList_fencedText]
    exact fenced?_lines hlead htag hblock
  rw [read, object?_fencedText, hfenced, Option.bind_some]
  cases object? (trimChars block) <;> rfl

/-- An object without a fence in it is recovered. -/
theorem read_fencedText (trail : String)
    (hread : Json.read (Json.obj fields).compact = .ok (.obj fields))
    (hlead : ¬ fence <:+: lead.toList) (htag : '\n' ∉ tag.toList)
    (hfence : ¬ fence <:+: (Json.obj fields).chars) :
    read (fencedText lead tag fields trail) = fields := by
  rw [read_of_block trail hlead htag (cut?_line hfence trail.toList),
    object?_block hread, Option.getD_some]

/-- An object with a fence in it is lost, and the answer is plain text. -/
theorem read_fencedText_of_fence (trail : String)
    (hread : Json.read (Json.obj fields).compact = .ok (.obj fields))
    (hlead : ¬ fence <:+: lead.toList) (htag : '\n' ∉ tag.toList)
    (hfence : fence <:+: (Json.obj fields).chars) :
    read (fencedText lead tag fields trail) =
      [(defaultKey, .str (fencedText lead tag fields trail))] := by
  obtain ⟨⟨before, rest⟩, hcut⟩ :
      ∃ parts, cut? fence (Json.obj fields).chars = some parts := by
    rw [← Option.ne_none_iff_exists', Ne, cut?_eq_none_iff, not_not]
    exact hfence
  have hblock := cut?_append hcut ('\n' :: fence ++ trail.toList)
  rw [← List.append_assoc] at hblock
  rw [read_of_block trail hlead htag hblock, object?_cut hread hcut, Option.getD_none]

/-- A text is no longer than it is in quotes. -/
theorem length_le_quoteChars (s : List Char) : s.length ≤ (Json.quoteChars s).length := by
  have hchar : ∀ c, 1 ≤ (Json.escapeChar c).length := by
    intro c
    unfold Json.escapeChar
    split <;> try decide
    split <;> simp
  have hall : s.length ≤ (s.flatMap Json.escapeChar).length := by
    induction s with
    | nil => exact Nat.le_refl 0
    | cons c s ih =>
      have hc := hchar c
      rw [List.flatMap_cons, List.length_append, List.length_cons]
      omega
  rw [Json.quoteChars, List.cons_append, List.length_cons, List.length_append]
  omega

theorem length_lt_chars (key text : String) :
    (Json.quoteChars text.toList).length < (Json.obj [(key, .str text)]).chars.length := by
  simp [Json.chars, Json.fieldsChars]
  omega

/-- No object holds the text in which it stands. -/
theorem ne_of_fencedText (lead tag : String) (fields : JsonObject) (trail : String) :
    fields ≠ [(defaultKey, .str (fencedText lead tag fields trail))] := by
  intro hself
  have hquoted := length_le_quoteChars (fencedText lead tag fields trail).toList
  have hlonger := length_lt_chars defaultKey (fencedText lead tag fields trail)
  rw [← hself] at hlonger
  have hshorter : (Json.obj fields).chars.length <
      (fencedText lead tag fields trail).toList.length := by
    rw [toList_fencedText]
    simp only [List.length_append, List.length_cons]
    omega
  omega

/-- An object in the first fenced block of an answer is recovered exactly when its own text holds no
fence.  Otherwise the whole answer is kept as plain text. -/
theorem read_fencedText_eq_iff {lead tag : String} {fields : JsonObject} (trail : String)
    (hcanonical : (Json.obj fields).Canonical) (hint : (Json.obj fields).IntegersOnly)
    (hdepth : (Json.obj fields).depth ≤ Build.depthLimit) (hlead : ¬ fence <:+: lead.toList)
    (htag : '\n' ∉ tag.toList) :
    (read (fencedText lead tag fields trail) = fields ↔ ¬ fence <:+: (Json.obj fields).chars) ∧
      (fence <:+: (Json.obj fields).chars → read (fencedText lead tag fields trail) =
        [(defaultKey, .str (fencedText lead tag fields trail))]) := by
  have hread := Json.read_compact hcanonical hint hdepth
  have hlost := read_fencedText_of_fence trail hread hlead htag
  refine ⟨⟨fun hfound hfence => ?_, read_fencedText trail hread hlead htag⟩, hlost⟩
  exact ne_of_fencedText lead tag fields trail (hfound.symm.trans (hlost hfence))

/-- An object of which a text holds backticks in pairs and a line break. -/
def tickPairs : JsonObject := [("a\x7d", .str "``\n``"), ("b", .arr [.int (-7)])]

/-- Backticks in pairs do no harm, be they in the object or right before the opening fence. -/
theorem read_fencedText_tickPairs :
    (Json.obj tickPairs).Canonical ∧ (Json.obj tickPairs).IntegersOnly ∧
      (Json.obj tickPairs).depth ≤ Build.depthLimit ∧ ¬ fence <:+: "see ``".toList ∧
      '\n' ∉ "json".toList ∧ ¬ fence <:+: (Json.obj tickPairs).chars ∧
      read (fencedText "see ``" "json" tickPairs "```") = tickPairs := by
  have hcanonical : (Json.obj tickPairs).Canonical := by
    have hsorted : Keyed.Sorted tickPairs := by decide
    have hrange : (JsonNumber.int (-7)).Representable := ⟨by decide, by decide⟩
    exact ⟨hsorted, trivial, ⟨hrange, trivial⟩, trivial⟩
  have hint : (Json.obj tickPairs).IntegersOnly := ⟨trivial, ⟨trivial, trivial⟩, trivial⟩
  have hdepth : (Json.obj tickPairs).depth ≤ Build.depthLimit := by decide
  have hlead : ¬ fence <:+: "see ``".toList := by decide
  have htag : '\n' ∉ "json".toList := by decide
  have hfence : ¬ fence <:+: (Json.obj tickPairs).chars := by decide
  exact ⟨hcanonical, hint, hdepth, hlead, htag, hfence,
    (read_fencedText_eq_iff "```" hcanonical hint hdepth hlead htag).1.2 hfence⟩

/-- An object of which a text holds a fence. -/
def fenceInside : JsonObject := [("a", .str "```")]

/-- A fence inside a text ends the block there, so the object is lost. -/
theorem read_fencedText_fenceInside :
    (Json.obj fenceInside).Canonical ∧ (Json.obj fenceInside).IntegersOnly ∧
      (Json.obj fenceInside).depth ≤ Build.depthLimit ∧ ¬ fence <:+: "".toList ∧
      '\n' ∉ "json".toList ∧
      fencedText "" "json" fenceInside "" = "```json\n\x7b\"a\":\"```\"\x7d\n```" ∧
      read (fencedText "" "json" fenceInside "") =
        [("response", .str "```json\n\x7b\"a\":\"```\"\x7d\n```")] ∧
      read (fencedText "" "json" fenceInside "") ≠ fenceInside := by
  refine ⟨⟨by decide, trivial, trivial⟩, ⟨trivial, trivial⟩, by decide,
    by decide, by decide, by decide, ?_, ?_⟩
  · decide +kernel
  · decide +kernel

end AgentLoop.Answer
