import AgentLoop.Run.CallIds

/-!
# When the ids of a reply collide

A blank id, and an id that an earlier call has, is replaced by one made of the turn and the
position of the call.  The made id is not compared with the ids that earlier calls have kept.  So
the calls of a reply end up with different ids exactly when no call keeps the id that is made for a
later one.

* `getElem?_normalizeCalls` is the id of the call at a position.
* `IsReplaced` says, of the calls as the model wrote them, which ones get a new id, and
  `isReplaced_iff` that the search for them finds the same ones.
* `MadeIdTaken` is the condition on a reply, and `nodup_normalizeCalls_iff` says that ids collide
  exactly under it.
* `not_allBlank_normalizeCalls`: no id is blank afterwards.
* `Normalized` says what normalization does to a reply without following it through the calls, and
  `normalizeCalls_exactly` that this is exactly what it does.
-/

namespace AgentLoop

/-! ## Made ids -/

/-- The ids made in one turn for two positions differ. -/
theorem madeId_inj {iteration i j : Nat} (h : madeId iteration i = madeId iteration j) : i = j := by
  have hrepr : i.repr = j.repr := by simpa [madeId] using h
  have hdigits : Nat.toDigits 10 i = Nat.toDigits 10 j := by
    rw [← Nat.toList_repr, ← Nat.toList_repr, hrepr]
  rw [← Nat.ofDigitChars_ten_toDigits (n := i), hdigits, Nat.ofDigitChars_ten_toDigits]

theorem not_allBlank_madeId (iteration index : Nat) :
    Text.allBlank (madeId iteration index) = false := by
  rw [Text.allBlank, List.all_eq_false]
  refine ⟨'c', ?_, by decide⟩
  simp only [madeId, String.toList_append, List.mem_append]
  exact .inl (.inl (.inl (by decide)))

/-! ## The ids of a reply -/

/-- The ids of the calls before a position. -/
def idsBefore (calls : List ToolCall) (index : Nat) : List String :=
  (calls.take index).map ToolCall.id

theorem mem_idsBefore {calls : List ToolCall} {index : Nat} {id : String} :
    id ∈ idsBefore calls index ↔ ∃ i call, i < index ∧ calls[i]? = some call ∧ call.id = id := by
  simp only [idsBefore, List.mem_map, List.mem_take_iff_getElem]
  constructor
  · rintro ⟨call, ⟨i, hi, rfl⟩, rfl⟩
    exact ⟨i, _, by omega, List.getElem?_eq_getElem (by omega), rfl⟩
  · rintro ⟨i, call, hi, hcall, rfl⟩
    obtain ⟨hlt, rfl⟩ := List.getElem?_eq_some_iff.1 hcall
    exact ⟨_, ⟨i, by omega, rfl⟩, rfl⟩

/-- The call at a position from `index` on, when `seen` are the ids before. -/
theorem getElem?_normalizeFrom (iteration : Nat) (seen : List String) (index k : Nat)
    (calls : List ToolCall) :
    (normalizeFrom iteration seen index calls)[k]? = calls[k]?.map fun call =>
      { call with
        id :=
          if Text.allBlank call.id ∨
              call.id ∈ idsBefore (normalizeFrom iteration seen index calls) k ∨ call.id ∈ seen
          then madeId iteration (index + k) else call.id } := by
  induction calls generalizing seen index k with
  | nil => rfl
  | cons call calls ih =>
    cases k with
    | zero => simp [normalizeFrom, idsBefore]
    | succ k =>
      rw [normalizeFrom]
      simp only [List.getElem?_cons_succ]
      rw [ih]
      simp only [idsBefore, List.take_succ_cons, List.map_cons, List.mem_cons]
      have hindex : index + 1 + k = index + (k + 1) := by omega
      rw [hindex]
      congr 1
      funext later
      congr 1
      simp only [or_assoc, or_left_comm]

/-- The call at a position gets a new id: its own is blank, or an earlier call had it, or it was
made for an earlier call. -/
inductive IsReplaced (iteration : Nat) (calls : List ToolCall) : Nat → Prop where
  | blank {j : Nat} {call : ToolCall} (hcall : calls[j]? = some call)
      (hblank : Text.allBlank call.id = true) : IsReplaced iteration calls j
  | repeated {i j : Nat} {earlier call : ToolCall} (hij : i < j)
      (hearlier : calls[i]? = some earlier) (hcall : calls[j]? = some call)
      (hid : call.id = earlier.id) : IsReplaced iteration calls j
  | made {i j : Nat} {call : ToolCall} (hij : i < j) (hearlier : IsReplaced iteration calls i)
      (hcall : calls[j]? = some call) (hid : call.id = madeId iteration i) :
      IsReplaced iteration calls j

/-- A call keeps an id that is made for a later call, which gets it too. -/
def MadeIdTaken (iteration : Nat) (calls : List ToolCall) : Prop :=
  ∃ i j call, i < j ∧ calls[i]? = some call ∧ call.id = madeId iteration j ∧
    ¬ IsReplaced iteration calls i ∧ IsReplaced iteration calls j

/-- The call at a position: its id is its own or the one made for the position. -/
theorem getElem?_normalizeCalls (iteration : Nat) (calls : List ToolCall) (k : Nat) :
    (normalizeCalls iteration calls)[k]? = calls[k]?.map fun call =>
      { call with
        id :=
          if Text.allBlank call.id ∨ call.id ∈ idsBefore (normalizeCalls iteration calls) k
          then madeId iteration k else call.id } := by
  rw [normalizeCalls, getElem?_normalizeFrom, Nat.zero_add]
  congr 1
  funext call
  congr 1
  exact ite_congr (by simp) (fun _ => rfl) (fun _ => rfl)

/-- A call that gets another id keeps its tool and its arguments as they were given. -/
theorem map_normalizeCalls (iteration : Nat) (calls : List ToolCall) :
    (normalizeCalls iteration calls).map (fun call => (call.name, call.arguments)) =
      calls.map fun call => (call.name, call.arguments) := by
  refine List.ext_getElem? fun k => ?_
  rw [List.getElem?_map, List.getElem?_map, getElem?_normalizeCalls, Option.map_map]
  rfl

variable {iteration : Nat} {calls given : List ToolCall} {call out : ToolCall} {i j k : Nat}

theorem idsBefore_mono (h : i ≤ j) {id : String} (hid : id ∈ idsBefore calls i) :
    id ∈ idsBefore calls j := by
  obtain ⟨k, call, hk, hcall, rfl⟩ := mem_idsBefore.1 hid
  exact mem_idsBefore.2 ⟨k, call, by omega, hcall, rfl⟩

/-- The id of a replaced call is blank or given to an earlier call. -/
theorem IsReplaced.allBlank_or_mem (h : IsReplaced iteration calls j)
    (hcall : calls[j]? = some call) :
    Text.allBlank call.id = true ∨ call.id ∈ idsBefore (normalizeCalls iteration calls) j := by
  induction h generalizing call with
  | blank hcall' hblank =>
    cases hcall.symm.trans hcall'
    exact .inl hblank
  | @repeated i j earlier call' hij hearlier hcall' hid =>
    cases hcall.symm.trans hcall'
    -- the earlier call has given its id to itself, unless it found it given already
    by_cases hreplaced : Text.allBlank earlier.id = true ∨
        earlier.id ∈ idsBefore (normalizeCalls iteration calls) i
    · rw [hid]
      exact hreplaced.imp_right (idsBefore_mono (Nat.le_of_lt hij))
    · refine .inr (mem_idsBefore.2 ⟨i, earlier, hij, ?_, hid.symm⟩)
      rw [getElem?_normalizeCalls, hearlier, Option.map_some, if_neg hreplaced]
  | @made i j call' hij hearlier hcall' hid ih =>
    cases hcall.symm.trans hcall'
    have hlt : i < calls.length := by
      have := (List.getElem?_eq_some_iff.1 hcall).1
      omega
    have hat := List.getElem?_eq_getElem hlt
    refine .inr (mem_idsBefore.2 ⟨i, { calls[i] with id := madeId iteration i }, hij, ?_,
      hid.symm⟩)
    rw [getElem?_normalizeCalls, hat, Option.map_some, if_pos (ih hat)]

/-- A call whose id is given to an earlier call is replaced. -/
theorem isReplaced_of_mem (hcall : calls[j]? = some call)
    (hmem : call.id ∈ idsBefore (normalizeCalls iteration calls) j) :
    IsReplaced iteration calls j := by
  induction j using Nat.strongRecOn generalizing call with
  | ind j ih =>
    obtain ⟨i, given, hij, hgiven, hid⟩ := mem_idsBefore.1 hmem
    rw [getElem?_normalizeCalls] at hgiven
    obtain ⟨earlier, hearlier, rfl⟩ := Option.map_eq_some_iff.1 hgiven
    simp only at hid
    split at hid
    · next hreplaced =>
      have hmade : IsReplaced iteration calls i := by
        rcases hreplaced with hblank | hbefore
        · exact .blank hearlier hblank
        · exact ih i hij hearlier hbefore
      exact .made hij hmade hcall hid.symm
    · exact .repeated hij hearlier hcall hid.symm

/-- The replaced calls are those whose id is blank or given to an earlier call. -/
theorem isReplaced_iff (hcall : calls[j]? = some call) :
    IsReplaced iteration calls j ↔
      Text.allBlank call.id = true ∨ call.id ∈ idsBefore (normalizeCalls iteration calls) j := by
  constructor
  · intro h
    exact h.allBlank_or_mem hcall
  · rintro (hblank | hmem)
    · exact .blank hcall hblank
    · exact isReplaced_of_mem hcall hmem

/-- A call that is not replaced is left as it is, and no earlier call has its id. -/
theorem getElem?_of_not_isReplaced (hcall : calls[k]? = some call)
    (h : ¬ IsReplaced iteration calls k) :
    (normalizeCalls iteration calls)[k]? = some call ∧
      call.id ∉ idsBefore (normalizeCalls iteration calls) k := by
  rw [isReplaced_iff hcall] at h
  refine ⟨?_, fun hmem => h (.inr hmem)⟩
  rw [getElem?_normalizeCalls, hcall, Option.map_some, if_neg h]

/-- A replaced call has the id made for its position. -/
theorem getElem?_of_isReplaced (hcall : calls[k]? = some call)
    (h : IsReplaced iteration calls k) :
    (normalizeCalls iteration calls)[k]? = some { call with id := madeId iteration k } := by
  rw [getElem?_normalizeCalls, hcall, Option.map_some, if_pos ((isReplaced_iff hcall).1 h)]

theorem IsReplaced.exists_call (h : IsReplaced iteration calls k) :
    ∃ call, calls[k]? = some call := by
  cases h with
  | blank hcall _ => exact ⟨_, hcall⟩
  | repeated _ _ hcall _ => exact ⟨_, hcall⟩
  | made _ _ hcall _ => exact ⟨_, hcall⟩

/-- Two calls of a reply share an id exactly when the first has kept the id made for the second. -/
theorem eq_id_iff {first second : ToolCall} (hij : i < j)
    (hi : (normalizeCalls iteration calls)[i]? = some first)
    (hj : (normalizeCalls iteration calls)[j]? = some second) :
    first.id = second.id ↔ ∃ call, calls[i]? = some call ∧ call.id = madeId iteration j ∧
      ¬ IsReplaced iteration calls i ∧ IsReplaced iteration calls j := by
  obtain ⟨earlier, hearlier, -⟩ := Option.map_eq_some_iff.1 (getElem?_normalizeCalls .. ▸ hi)
  obtain ⟨later, hlater, -⟩ := Option.map_eq_some_iff.1 (getElem?_normalizeCalls .. ▸ hj)
  constructor
  · intro hid
    by_cases hsecond : IsReplaced iteration calls j
    · cases hj.symm.trans (getElem?_of_isReplaced hlater hsecond)
      by_cases hfirst : IsReplaced iteration calls i
      · cases hi.symm.trans (getElem?_of_isReplaced hearlier hfirst)
        have : i = j := madeId_inj hid
        omega
      · cases hi.symm.trans (getElem?_of_not_isReplaced hearlier hfirst).1
        exact ⟨first, hearlier, hid, hfirst, hsecond⟩
    · obtain ⟨hkept, hfresh⟩ := getElem?_of_not_isReplaced hlater hsecond
      cases hj.symm.trans hkept
      exact absurd (mem_idsBefore.2 ⟨i, first, hij, hi, hid⟩) hfresh
  · rintro ⟨call, hcall, hid, hfirst, hsecond⟩
    cases hi.symm.trans (getElem?_of_not_isReplaced hcall hfirst).1
    cases hj.symm.trans (getElem?_of_isReplaced hlater hsecond)
    exact hid

/-- The calls of a reply end up with different ids exactly when no call keeps the id that is made
for a later one. -/
theorem nodup_normalizeCalls_iff :
    ((normalizeCalls iteration calls).map ToolCall.id).Nodup ↔ ¬ MadeIdTaken iteration calls := by
  rw [List.Nodup, List.pairwise_iff_getElem]
  constructor
  · rintro hnodup ⟨i, j, call, hij, hcall, hid, hkept, hreplaced⟩
    obtain ⟨later, hlater⟩ := hreplaced.exists_call
    have hi := (getElem?_of_not_isReplaced hcall hkept).1
    have hj := getElem?_of_isReplaced hlater hreplaced
    obtain ⟨hi', rfl⟩ := List.getElem?_eq_some_iff.1 hi
    obtain ⟨hj', hsecond⟩ := List.getElem?_eq_some_iff.1 hj
    refine hnodup i j (by simpa using hi') (by simpa using hj') hij ?_
    rw [List.getElem_map, List.getElem_map, hsecond]
    exact hid
  · intro htaken i j hi hj hij hid
    rw [List.getElem_map, List.getElem_map] at hid
    rw [List.length_map] at hi hj
    obtain ⟨call, hshared⟩ :=
      (eq_id_iff hij (List.getElem?_eq_getElem hi) (List.getElem?_eq_getElem hj)).1 hid
    exact htaken ⟨i, j, call, hij, hshared⟩

/-- No call of a reply ends up with a blank id. -/
theorem not_allBlank_normalizeCalls (h : call ∈ normalizeCalls iteration calls) :
    Text.allBlank call.id = false := by
  obtain ⟨k, hk⟩ := List.mem_iff_getElem?.1 h
  rw [getElem?_normalizeCalls] at hk
  obtain ⟨given, -, rfl⟩ := Option.map_eq_some_iff.1 hk
  dsimp only
  split
  · exact not_allBlank_madeId iteration k
  · next hid =>
    rw [not_or] at hid
    exact Bool.not_eq_true _ ▸ hid.1

/-! ## What normalization does -/

/-- Behind these calls the call keeps its id: it is not blank, and none of them has it. -/
def KeepsId (earlier : List ToolCall) (call : ToolCall) : Prop :=
  Text.allBlank call.id = false ∧ ∀ other ∈ earlier, other.id ≠ call.id

/-- The calls of a reply as they are given out: in their order, each for its tool and with its
arguments, and with its own id where it keeps it and the made one elsewhere. -/
structure Normalized (iteration : Nat) (calls given : List ToolCall) : Prop where
  alike : given.map (fun call => (call.name, call.arguments)) =
    calls.map fun call => (call.name, call.arguments)
  kept : ∀ j call out, calls[j]? = some call → given[j]? = some out →
    KeepsId (given.take j) call → out.id = call.id
  made : ∀ j call out, calls[j]? = some call → given[j]? = some out →
    ¬ KeepsId (given.take j) call → out.id = madeId iteration j

/-- The calls that do not keep their ids are those that are replaced. -/
theorem not_keepsId_iff (hcall : calls[j]? = some call) :
    ¬ KeepsId ((normalizeCalls iteration calls).take j) call ↔ IsReplaced iteration calls j := by
  rw [isReplaced_iff hcall, KeepsId, idsBefore, List.mem_map]
  constructor
  · intro h
    rw [Classical.or_iff_not_imp_left, Bool.not_eq_true]
    intro hblank
    simpa [hblank] using h
  · rintro (hblank | ⟨other, hother, hid⟩) ⟨hvisible, hfresh⟩
    · rw [hblank] at hvisible
      cases hvisible
    · exact hfresh other hother hid

theorem normalized_normalizeCalls (iteration : Nat) (calls : List ToolCall) :
    Normalized iteration calls (normalizeCalls iteration calls) where
  alike := map_normalizeCalls iteration calls
  kept j call out hcall hout hkeeps := by
    have hkept := mt (not_keepsId_iff hcall).2 (not_not_intro hkeeps)
    cases hout.symm.trans (getElem?_of_not_isReplaced hcall hkept).1
    rfl
  made j call out hcall hout hkeeps := by
    cases hout.symm.trans (getElem?_of_isReplaced hcall ((not_keepsId_iff hcall).1 hkeeps))
    rfl

theorem Normalized.length_eq (h : Normalized iteration calls given) :
    given.length = calls.length := by
  simpa using congrArg List.length h.alike

/-- The call at a position is determined by those before it. -/
theorem Normalized.getElem?_eq {given' : List ToolCall} (h : Normalized iteration calls given)
    (h' : Normalized iteration calls given') (hbelow : given.take j = given'.take j)
    (hj : j < calls.length) : given[j]? = given'[j]? := by
  obtain ⟨out, hout⟩ : ∃ out, given[j]? = some out :=
    ⟨_, List.getElem?_eq_getElem (h.length_eq.symm ▸ hj)⟩
  obtain ⟨out', hout'⟩ : ∃ out, given'[j]? = some out :=
    ⟨_, List.getElem?_eq_getElem (h'.length_eq.symm ▸ hj)⟩
  have hcall := List.getElem?_eq_getElem hj
  have hid : out.id = out'.id := by
    by_cases hkeeps : KeepsId (given.take j) calls[j]
    · rw [h.kept j _ _ hcall hout hkeeps, h'.kept j _ _ hcall hout' (hbelow ▸ hkeeps)]
    · rw [h.made j _ _ hcall hout hkeeps, h'.made j _ _ hcall hout' (hbelow ▸ hkeeps)]
  have hrest := congrArg (fun cs => cs[j]?) (h.alike.trans h'.alike.symm)
  simp only [List.getElem?_map, hout, hout', Option.map_some, Option.some.injEq,
    Prod.mk.injEq] at hrest
  rw [hout, hout', Option.some.injEq, ToolCall.mk.injEq]
  exact ⟨hid, hrest⟩

/-- A reply can be given out in one way only. -/
theorem Normalized.unique {given' : List ToolCall} (h : Normalized iteration calls given)
    (h' : Normalized iteration calls given') : given = given' := by
  have hbelow : ∀ j ≤ calls.length, given.take j = given'.take j := by
    intro j hj
    induction j with
    | zero => rfl
    | succ j ih =>
      have hearlier := ih (by omega)
      rw [List.take_add_one, List.take_add_one, hearlier, h.getElem?_eq h' hearlier (by omega)]
  have hall := hbelow calls.length (Nat.le_refl _)
  rwa [List.take_of_length_le (Nat.le_of_eq h.length_eq),
    List.take_of_length_le (Nat.le_of_eq h'.length_eq)] at hall

/-- The call at the first position has kept the id that is made for the call at the second one,
which is replaced. -/
def TakesMadeId (iteration : Nat) (calls : List ToolCall) (i j : Nat) : Prop :=
  (∃ call, calls[i]? = some call ∧ call.id = madeId iteration j ∧
    KeepsId ((normalizeCalls iteration calls).take i) call) ∧
  ∃ call, calls[j]? = some call ∧ ¬ KeepsId ((normalizeCalls iteration calls).take j) call

/-- The calls of a reply are given out as normalization says and in no other way, and those at two
positions share an id exactly when the first has kept the id that is made for the second, which is
replaced. -/
theorem normalizeCalls_exactly (iteration : Nat) (calls : List ToolCall) :
    (∀ given, given = normalizeCalls iteration calls ↔ Normalized iteration calls given) ∧
    ∀ i j, i < j →
      ((∃ first second, (normalizeCalls iteration calls)[i]? = some first ∧
        (normalizeCalls iteration calls)[j]? = some second ∧ first.id = second.id) ↔
      TakesMadeId iteration calls i j) := by
  refine ⟨fun given => ⟨?_, fun h => h.unique (normalized_normalizeCalls iteration calls)⟩,
    fun i j hij => ⟨?_, ?_⟩⟩
  · rintro rfl
    exact normalized_normalizeCalls iteration calls
  · rintro ⟨first, second, hi, hj, hid⟩
    obtain ⟨call, hcall, hmade, hkept, hreplaced⟩ := (eq_id_iff hij hi hj).1 hid
    obtain ⟨later, hlater⟩ := hreplaced.exists_call
    exact ⟨⟨call, hcall, hmade, Classical.not_not.1 (mt (not_keepsId_iff hcall).1 hkept)⟩,
      later, hlater, (not_keepsId_iff hlater).2 hreplaced⟩
  · rintro ⟨⟨call, hcall, hmade, hkeeps⟩, later, hlater, hgiven⟩
    have hkept := mt (not_keepsId_iff hcall).2 (not_not_intro hkeeps)
    have hreplaced := (not_keepsId_iff hlater).1 hgiven
    have hi := (getElem?_of_not_isReplaced hcall hkept).1
    have hj := getElem?_of_isReplaced hlater hreplaced
    exact ⟨_, _, hi, hj, (eq_id_iff hij hi hj).2 ⟨call, hcall, hmade, hkept, hreplaced⟩⟩

/-- A reply in which the second call keeps the id made for the third, which repeats the id made for
the first. -/
def crowdedReply : List ToolCall :=
  [⟨"", "weather", "{}"⟩, ⟨"call_1_2", "clock", "{}"⟩, ⟨"call_1_0", "search", "{}"⟩]

/-- The second and the third call of this reply share an id. -/
theorem normalizeCalls_exactly_crowdedReply :
    Normalized 1 crowdedReply
      [⟨"call_1_0", "weather", "{}"⟩, ⟨"call_1_2", "clock", "{}"⟩, ⟨"call_1_2", "search", "{}"⟩] ∧
    (1 < 2 ∧ TakesMadeId 1 crowdedReply 1 2) ∧ (0 < 1 ∧ ¬ TakesMadeId 1 crowdedReply 0 1) := by
  obtain ⟨hexact, hshares⟩ := normalizeCalls_exactly 1 crowdedReply
  have hfirst : ¬ TakesMadeId 1 crowdedReply 0 1 := by
    rw [← hshares 0 1 (by decide)]
    rintro ⟨first, second, hi, hj, hid⟩
    have hgiven : normalizeCalls 1 crowdedReply = [⟨"call_1_0", "weather", "{}"⟩,
        ⟨"call_1_2", "clock", "{}"⟩, ⟨"call_1_2", "search", "{}"⟩] := by decide
    rw [hgiven] at hi hj
    cases hi
    cases hj
    exact absurd hid (by decide)
  exact ⟨(hexact _).1 (by decide),
    ⟨by decide, (hshares 1 2 (by decide)).1 ⟨_, _, rfl, rfl, by decide⟩⟩, by decide, hfirst⟩

end AgentLoop
