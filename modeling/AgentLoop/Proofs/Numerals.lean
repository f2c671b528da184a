import AgentLoop.Proofs.Readers
import AgentLoop.Proofs.ShortestDecimals
import AgentLoop.Toml.Printer
import AgentLoop.Toml.Statement

/-!
# Numbers in TOML are read back

A number is written in decimal digits, one that is not an integer with a point between them.  What
is written before and behind the point denotes the shortest decimal of the number, and this decimal
is rounded to the number.

* `Delimited` says what follows on a value: the end of a line, a comma or a bracket.
* `IsWhole` says that digits do not begin with a zero that is not the only one; `isWhole_digitsOf`
  and `valueIn_digitsOf` are about the digits of a natural number.
* `Numeral.integer_append`, `float_append`, `float_of_isWhole` and `dateTime_append` say what is
  read from digits, with a point and without.  Digits alone are no date and no time.
* `exists_layPositional` takes the text of a decimal apart, and `exists_floatChars` the text of a
  number.
-/

namespace AgentLoop.Toml

open Reader hiding some

variable {digits whole places rest : List Char} {n : Nat}

/-- What comes next ends a value: a line ends there, or an item of an array does. -/
def Delimited (rest : List Char) : Prop := ∀ c ∈ rest.head?, c = '\n' ∨ c = ',' ∨ c = ']'

theorem Delimited.ends {ok : Char → Bool} (h : Delimited rest)
    (hok : ok '\n' = false ∧ ok ',' = false ∧ ok ']' = false) : Ends ok rest := by
  intro c hc
  rcases h c hc with rfl | rfl | rfl
  exacts [hok.1, hok.2.1, hok.2.2]

/-! ## Digits -/

theorem ne_of_isDigit {c d : Char} (hc : c.isDigit = true) (hd : d.isDigit = false) : c ≠ d := by
  rintro rfl
  simp [hc] at hd

/-- The digits of a number, which do not begin with a zero unless it is the only digit. -/
structure IsWhole (digits : List Char) : Prop where
  ne_nil : digits ≠ []
  isDigit : ∀ c ∈ digits, c.isDigit = true
  leading : digits.head? = some '0' → digits = ['0']

theorem isDigit_of_mem_digitsOf {c : Char} (hc : c ∈ Layout.digitsOf n) : c.isDigit = true :=
  Nat.isDigit_of_mem_toDigits (by decide) (by decide) hc

theorem isWhole_digitsOf (n : Nat) : IsWhole (Layout.digitsOf n) := by
  refine ⟨Nat.toDigits_ne_nil, fun c => isDigit_of_mem_digitsOf, ?_⟩
  unfold Layout.digitsOf
  induction n using Nat.strongRecOn with
  | ind n ih =>
    by_cases hn : n < 10
    · rw [Nat.toDigits_of_lt_base hn]
      simp
    · rw [Nat.toDigits_of_base_le (by decide) (by omega)]
      intro hzero
      have hhead : (Nat.toDigits 10 (n / 10)).head? = some '0' := by
        rwa [List.head?_append_of_ne_nil _ Nat.toDigits_ne_nil] at hzero
      have hvalue := Nat.ofDigitChars_ten_toDigits (n := n / 10)
      rw [ih (n / 10) (by omega) hhead] at hvalue
      have : n / 10 = 0 := hvalue.symm
      omega

theorem valueIn_eq (h : ∀ c ∈ digits, c.isDigit = true) :
    Quoted.valueIn 10 digits = Nat.ofDigitChars 10 digits 0 := by
  refine List.foldl_ext _ _ _ fun n c hc => ?_
  rw [Quoted.hexValue, if_pos (h c hc), Nat.mul_comm]

theorem valueIn_digitsOf (n : Nat) : Quoted.valueIn 10 (Layout.digitsOf n) = n := by
  rw [valueIn_eq fun c => isDigit_of_mem_digitsOf]
  exact Nat.ofDigitChars_ten_toDigits

namespace Numeral

/-- Nothing goes on a number. -/
structure EndsDigits (rest : List Char) : Prop where
  isDigit : Ends Char.isDigit rest
  underscore : Ends (· = '_') rest

theorem digits_append {ok : Char → Bool} (hne : digits ≠ []) (hdigits : ∀ c ∈ digits, ok c = true)
    (hrest : Ends ok rest) (hmark : Ends (· = '_') rest) :
    Numeral.digits ok (digits ++ rest) = some (digits, rest) := by
  have hmany : ∀ cs : List Char, (∀ c ∈ cs, ok c = true) →
      many (one ok <|> (do the '_'; one ok)) (cs ++ rest) = some (cs, rest) := by
    intro cs hcs
    induction cs with
    | nil =>
      refine many_of_eq_none ?_
      exact (orElse_of_eq_none (one_of_ends hrest)).trans (bind_of_eq_none (the_of_ends hmark))
    | cons c cs ih =>
      rw [List.forall_mem_cons] at hcs
      exact many_of_eq_some (orElse_of_eq_some (one_of_eq_true hcs.1)) (Nat.lt_succ_self _)
        (ih hcs.2)
  obtain ⟨c, cs, rfl⟩ := List.exists_cons_of_ne_nil hne
  rw [List.forall_mem_cons] at hdigits
  rw [Numeral.digits, List.cons_append, bind_of_eq_some (one_of_eq_true hdigits.1),
    bind_of_eq_some (hmany cs hdigits.2), pure_apply]

theorem decimalDigits_append (h : IsWhole digits) (hrest : EndsDigits rest) :
    decimalDigits (digits ++ rest) = some (digits, rest) := by
  obtain ⟨d, ds, rfl⟩ := List.exists_cons_of_ne_nil h.ne_nil
  have hpeek : peek (d :: ds ++ rest) = some (some d, d :: ds ++ rest) := rfl
  rw [decimalDigits, bind_of_eq_some hpeek]
  by_cases hzero : d = '0'
  · subst hzero
    rw [h.leading rfl]
    rfl
  · refine (congrFun (?_ : _ = Numeral.digits Char.isDigit) _).trans
      (digits_append h.ne_nil h.isDigit hrest.isDigit hrest.underscore)
    split
    · next heq => exact absurd (Option.some.inj heq) hzero
    · rfl

/-! ## Signs -/

/-- A minus sign, if there is one. -/
def signChars (negative : Bool) : List Char := if negative then ['-'] else []

theorem sign_of_isWhole (h : IsWhole digits) (rest : List Char) :
    sign (digits ++ rest) = some (false, digits ++ rest) := by
  obtain ⟨d, ds, rfl⟩ := List.exists_cons_of_ne_nil h.ne_nil
  have hd := h.isDigit d List.mem_cons_self
  have hsign : (d == '+' || d == '-') = false := by
    simp only [Bool.or_eq_false_iff, beq_eq_false_iff_ne]
    exact ⟨ne_of_isDigit hd rfl, ne_of_isDigit hd rfl⟩
  rw [List.cons_append, sign]
  exact bind_of_eq_some (possible_of_eq_none (one_of_eq_false hsign))

theorem sign_append (negative : Bool) (h : IsWhole digits) (rest : List Char) :
    sign (signChars negative ++ (digits ++ rest)) = some (negative, digits ++ rest) := by
  cases negative with
  | true => rfl
  | false => exact sign_of_isWhole h rest

/-! ## Integers -/

/-- Digits that have no letter behind them are no number in another base. -/
theorem based_append (letter : Char) (base : Nat) (ok : Char → Bool) (h : IsWhole digits)
    (hrest : Ends (· = letter) rest) :
    based letter base ok (digits ++ rest) = none := by
  obtain ⟨d, ds, rfl⟩ := List.exists_cons_of_ne_nil h.ne_nil
  refine bind_of_eq_none ?_
  by_cases hzero : d = '0'
  · subst hzero
    rw [h.leading rfl, word]
    exact (bind_of_eq_some the_self).trans (word_of_ends hrest)
  · exact word_of_ne hzero

theorem decimal_append (h : IsWhole digits) (hrest : EndsDigits rest)
    (hsmall : (Quoted.valueIn 10 digits : Int) ≤ maxInteger) :
    decimal (digits ++ rest) = some (.integer (Quoted.valueIn 10 digits), rest) := by
  have hrange : Toml.inRange (Quoted.valueIn 10 digits : Int) = true := by
    have hlow : minInteger ≤ Quoted.valueIn 10 digits := by
      rw [minInteger]
      omega
    simp [Toml.inRange, hlow, hsmall]
  rw [decimal, bind_of_eq_some (sign_of_isWhole h rest),
    bind_of_eq_some (decimalDigits_append h hrest)]
  rw [if_neg Bool.false_ne_true, inRange, if_pos hrange, pure_apply]

theorem integer_append (h : IsWhole digits) (hrest : Delimited rest)
    (hsmall : (Quoted.valueIn 10 digits : Int) ≤ maxInteger) :
    integer (digits ++ rest) = some (.integer (Quoted.valueIn 10 digits), rest) := by
  have hends : EndsDigits rest := ⟨hrest.ends (by decide), hrest.ends (by decide)⟩
  rw [integer, orElse_of_eq_none (based_append 'x' _ _ h (hrest.ends (by decide))),
    orElse_of_eq_none (based_append 'o' _ _ h (hrest.ends (by decide))),
    orElse_of_eq_none (based_append 'b' _ _ h (hrest.ends (by decide))),
    decimal_append h hends hsmall]

/-! ## Numbers with a fraction -/

theorem exponent_of_ends (hrest : Ends (fun c => c == 'e' || c == 'E') rest) :
    exponent rest = none :=
  bind_of_eq_none (one_of_ends hrest)

/-- Digits behind which no fraction and no exponent follows are no such number. -/
theorem float_of_isWhole (h : IsWhole digits) (hrest : Delimited rest) :
    float (digits ++ rest) = none := by
  have hends : EndsDigits rest := ⟨hrest.ends (by decide), hrest.ends (by decide)⟩
  have hfraction : fraction rest = none :=
    bind_of_eq_none (the_of_ends (hrest.ends (by decide)))
  have hscaled : scaled (digits ++ rest) = none := by
    rw [scaled, bind_of_eq_some (sign_of_isWhole h rest),
      bind_of_eq_some (decimalDigits_append h hends)]
    refine bind_of_eq_none ((orElse_of_eq_none ?_).trans (bind_of_eq_none hfraction))
    exact bind_of_eq_none (exponent_of_ends (hrest.ends (by decide)))
  rw [float, orElse_of_eq_none hscaled, special, bind_of_eq_some (sign_of_isWhole h rest)]
  obtain ⟨d, ds, rfl⟩ := List.exists_cons_of_ne_nil h.ne_nil
  have hd := h.isDigit d List.mem_cons_self
  have hword : ∀ c cs, c.isDigit = false → word (c :: cs) (d :: ds ++ rest) = none :=
    fun c cs hc => word_of_ne (ne_of_isDigit hd hc)
  exact (orElse_of_eq_none (bind_of_eq_none (hword 'i' _ rfl))).trans
    (bind_of_eq_none (hword 'n' _ rfl))

/-- Digits with a point between them. -/
theorem float_append {negative negative' : Bool} {m : Nat} {e : Int} (hwhole : IsWhole whole)
    (hne : places ≠ []) (hplaces : ∀ c ∈ places, c.isDigit = true) (hrest : Delimited rest)
    (hvalue : binary64.ofDecimal negative (Quoted.valueIn 10 (whole ++ places))
      (0 - places.length) = .finite negative' m e) :
    float (signChars negative ++ (whole ++ '.' :: (places ++ rest))) =
      some (.float (.finite negative' m e), rest) := by
  have hfraction : fraction ('.' :: (places ++ rest)) = some (places, rest) :=
    (bind_of_eq_some the_self).trans
      (digits_append hne hplaces (hrest.ends (by decide)) (hrest.ends (by decide)))
  have hpower : possible exponent rest = some (none, rest) :=
    possible_of_eq_none (exponent_of_ends (hrest.ends (by decide)))
  have hexponent : exponent ('.' :: (places ++ rest)) = none := exponent_of_ends (ends_cons rfl)
  refine orElse_of_eq_some ?_
  rw [scaled, bind_of_eq_some (sign_append negative hwhole _),
    bind_of_eq_some (decimalDigits_append hwhole ⟨ends_cons rfl, ends_cons rfl⟩)]
  refine (bind_of_eq_some ((orElse_of_eq_none (bind_of_eq_none hexponent)).trans
    ((bind_of_eq_some hfraction).trans (bind_of_eq_some hpower)))).trans ?_
  show (if binary64.ofDecimal negative (Quoted.valueIn 10 (whole ++ places))
      (0 - places.length) = .infinite false then (failure : Reader Toml)
    else pure (.float (binary64.ofDecimal negative (Quoted.valueIn 10 (whole ++ places))
      (0 - places.length)))) rest = _
  rw [hvalue, if_neg (by simp), pure_apply]

/-! ## Dates and times -/

/-- A number of a given width takes digits only. -/
theorem exactly_append_eq_some {ok : Char → Bool} {count : Nat} {cs left : List Char}
    (hdigits : ∀ c ∈ digits, ok c = true) (hrest : Ends ok rest)
    (h : exactly ok count (digits ++ rest) = some (cs, left)) :
    ∃ ds, left = ds ++ rest ∧ ∀ c ∈ ds, ok c = true := by
  induction count generalizing digits cs with
  | zero =>
    obtain ⟨rfl, rfl⟩ : [] = cs ∧ digits ++ rest = left := by simpa [exactly] using h
    exact ⟨digits, rfl, hdigits⟩
  | succ count ih =>
    cases digits with
    | nil =>
      rw [exactly, List.nil_append, bind_of_eq_none (one_of_ends hrest)] at h
      contradiction
    | cons d ds =>
      rw [List.forall_mem_cons] at hdigits
      rw [exactly, List.cons_append, bind_of_eq_some (one_of_eq_true hdigits.1)] at h
      cases hmore : exactly ok count (ds ++ rest) with
      | none =>
        rw [bind_of_eq_none hmore] at h
        contradiction
      | some r =>
        obtain ⟨cs', left'⟩ := r
        rw [bind_of_eq_some hmore, pure_apply] at h
        obtain ⟨-, rfl⟩ := Prod.mk.inj (Option.some.inj h)
        exact ih hdigits.2 hmore

/-- Behind a part of a date or of a time stands a mark, and not what follows on a number. -/
theorem field_then {α : Type} {mark : Char} (width low high : Nat) (f : Nat → Unit → Reader α)
    (hdigits : ∀ c ∈ digits, c.isDigit = true) (hrest : Ends Char.isDigit rest)
    (hmark : mark.isDigit = false) (hnext : Ends (· = mark) rest) :
    (field width low high >>= fun n => the mark >>= f n) (digits ++ rest) = none := by
  cases hread : exactly Char.isDigit width (digits ++ rest) with
  | none => exact bind_of_eq_none (bind_of_eq_none hread)
  | some r =>
    obtain ⟨cs, left⟩ := r
    obtain ⟨ds, rfl, hds⟩ := exactly_append_eq_some hdigits hrest hread
    have hthe : the mark (ds ++ rest) = none := by
      cases ds with
      | nil => exact the_of_ends hnext
      | cons d ds => exact the_of_ne (ne_of_isDigit (hds d List.mem_cons_self) hmark)
    by_cases hrange : (low ≤ Quoted.valueIn 10 cs && Quoted.valueIn 10 cs ≤ high) = true
    · have hfield : field width low high (digits ++ rest) =
          some (Quoted.valueIn 10 cs, ds ++ rest) := by
        rw [field, bind_of_eq_some hread, if_pos hrange, pure_apply]
      rw [bind_of_eq_some hfield, bind_of_eq_none hthe]
    · refine bind_of_eq_none ?_
      rw [field, bind_of_eq_some hread, if_neg hrange, failure_apply]

theorem dateTime_append (hdigits : ∀ c ∈ digits, c.isDigit = true)
    (hrest : ∀ c ∈ rest.head?, c.isDigit = false ∧ c ≠ '-' ∧ c ≠ ':') :
    dateTime (digits ++ rest) = none := by
  have hends : Ends Char.isDigit rest := fun c hc => (hrest c hc).1
  have hdash : Ends (· = '-') rest := fun c hc => decide_eq_false (hrest c hc).2.1
  have hcolon : Ends (· = ':') rest := fun c hc => decide_eq_false (hrest c hc).2.2
  have hdate : datePossiblyTime (digits ++ rest) = none :=
    bind_of_eq_none (field_then 4 0 9999 _ hdigits hends rfl hdash)
  have htime : time (digits ++ rest) = none :=
    field_then 2 0 23 _ hdigits hends rfl hcolon
  refine bind_of_eq_none ?_
  rw [taken, (orElse_of_eq_none hdate).trans htime]

end Numeral

/-! ## Decimals as text -/

theorem isDigit_zeros (k : Nat) : ∀ c ∈ List.replicate k '0', c.isDigit = true := by
  intro c hc
  rw [List.eq_of_mem_replicate hc]
  rfl

theorem valueIn_digits_zeros (n k : Nat) :
    Quoted.valueIn 10 (Layout.digitsOf n ++ List.replicate k '0') = n * 10 ^ k := by
  rw [valueIn_eq, Nat.ofDigitChars_append, Nat.ofDigitChars_replicate_zero, ← valueIn_eq,
    valueIn_digitsOf, Nat.mul_comm]
  · exact fun c => isDigit_of_mem_digitsOf
  · exact List.forall_mem_append.2 ⟨fun c => isDigit_of_mem_digitsOf, isDigit_zeros k⟩

theorem valueIn_zeros_digits (k n : Nat) :
    Quoted.valueIn 10 (List.replicate k '0' ++ Layout.digitsOf n) = n := by
  rw [valueIn_eq, Nat.ofDigitChars_append, Nat.ofDigitChars_replicate_zero, Nat.mul_zero,
    ← valueIn_eq, valueIn_digitsOf]
  · exact fun c => isDigit_of_mem_digitsOf
  · exact List.forall_mem_append.2 ⟨isDigit_zeros k, fun c => isDigit_of_mem_digitsOf⟩

/-- Digits before and behind a point that denote `n · 10 ^ place`. -/
structure IsPositional (n : Nat) (place : Int) (before behind : List Char) : Prop where
  isWhole : IsWhole before
  ne_nil : behind ≠ []
  isDigit : ∀ c ∈ behind, c.isDigit = true
  value : (Quoted.valueIn 10 (before ++ behind) * 10 ^ (0 - behind.length : Int) : ℚ) =
    n * 10 ^ place

theorem head_digitsOf_ne (hn : 0 < n) : (Layout.digitsOf n).head? ≠ some '0' := by
  intro h
  have hvalue := valueIn_digitsOf n
  rw [(isWhole_digitsOf n).leading h] at hvalue
  exact hn.ne hvalue

/-- Zeros behind the digits. -/
theorem isPositional_zeros (hn : 0 < n) (k : Nat) :
    IsPositional n k (Layout.digitsOf n ++ List.replicate k '0') ['0'] := by
  have hdigits := isWhole_digitsOf n
  refine ⟨⟨?_, ?_, ?_⟩, by simp, by simp, ?_⟩
  · simp [hdigits.ne_nil]
  · exact List.forall_mem_append.2 ⟨hdigits.isDigit, isDigit_zeros k⟩
  · rw [List.head?_append_of_ne_nil _ hdigits.ne_nil]
    exact fun h => absurd h (head_digitsOf_ne hn)
  · have hzeros : Layout.digitsOf n ++ List.replicate k '0' ++ ['0'] =
        Layout.digitsOf n ++ List.replicate (k + 1) '0' := by
      rw [List.append_assoc, List.replicate_succ']
    rw [hzeros, valueIn_digits_zeros]
    push_cast
    rw [List.length_singleton, Nat.cast_one, zero_sub, zpow_neg_one, zpow_natCast, pow_succ]
    ring

/-- The point between the digits. -/
theorem isPositional_split (hn : 0 < n) {k : Nat} (hpos : 0 < k)
    (hk : k < (Layout.digitsOf n).length) :
    IsPositional n (-k) ((Layout.digitsOf n).take ((Layout.digitsOf n).length - k))
      ((Layout.digitsOf n).drop ((Layout.digitsOf n).length - k)) := by
  have hdigits := isWhole_digitsOf n
  refine ⟨⟨?_, ?_, ?_⟩, ?_, ?_, ?_⟩
  · exact List.ne_nil_of_length_pos (by rw [List.length_take]; omega)
  · exact fun c hc => hdigits.isDigit c (List.mem_of_mem_take hc)
  · rw [List.head?_take, if_neg (by omega)]
    exact fun h => absurd h (head_digitsOf_ne hn)
  · exact List.ne_nil_of_length_pos (by rw [List.length_drop]; omega)
  · exact fun c hc => hdigits.isDigit c (List.mem_of_mem_drop hc)
  · have hbehind : (Layout.digitsOf n).length - ((Layout.digitsOf n).length - k) = k := by omega
    rw [List.take_append_drop, valueIn_digitsOf, List.length_drop, hbehind, zero_sub]

/-- Zeros before the digits. -/
theorem isPositional_small {k : Nat} (hk : (Layout.digitsOf n).length ≤ k) :
    IsPositional n (-k) ['0']
      (List.replicate (k - (Layout.digitsOf n).length) '0' ++ Layout.digitsOf n) := by
  have hdigits := isWhole_digitsOf n
  refine ⟨⟨by simp, by simp, by simp⟩, ?_, ?_, ?_⟩
  · simp [hdigits.ne_nil]
  · exact List.forall_mem_append.2 ⟨isDigit_zeros _, hdigits.isDigit⟩
  · have hbehind : k - (Layout.digitsOf n).length + (Layout.digitsOf n).length = k := by omega
    have hzeros := valueIn_zeros_digits (k - (Layout.digitsOf n).length + 1) n
    rw [List.replicate_succ, List.cons_append] at hzeros
    rw [List.singleton_append, hzeros, List.length_append, List.length_replicate, hbehind,
      zero_sub]

theorem exists_layPositional (hn : 0 < n) (place : Int) :
    ∃ before behind, Layout.layPositional (Layout.digitsOf n) place = before ++ '.' :: behind ∧
      IsPositional n place before behind := by
  rw [Layout.layPositional]
  split
  · next hplace =>
    obtain ⟨k, rfl⟩ := Int.eq_ofNat_of_zero_le hplace
    exact ⟨_, _, rfl, isPositional_zeros hn k⟩
  · next hplace =>
    obtain ⟨k, rfl⟩ : ∃ k : Nat, place = -k := ⟨(-place).toNat, by omega⟩
    dsimp only
    rw [neg_neg, Int.toNat_natCast]
    split_ifs with hfraction
    · exact ⟨_, _, rfl, isPositional_split hn (by omega) hfraction⟩
    · exact ⟨_, _, rfl, isPositional_small (by omega)⟩

/-- The digits of the shortest decimal are not only zeros. -/
theorem digits_shortest_pos {m : Nat} {e : Int} (hfits : binary64.Fits m e) (tie : Tie) :
    0 < (shortest binary64 tie m e).digits := by
  have hlow := (BinaryFormat.bounds_of_contains hfits (contains_shortest tie hfits)).1
  rw [Nat.pos_iff_ne_zero]
  intro hzero
  have : (0 : ℚ) < 2 ^ (binary64.minScale - 1) := by positivity
  rw [hzero, Nat.cast_zero, zero_mul] at hlow
  linarith

/-- The text of a number that is not an integer has a point, and what it denotes is rounded to the
number. -/
theorem exists_floatChars {negative : Bool} {m : Nat} {e : Int}
    (h : binary64.Represents (.finite negative m e)) :
    ∃ before behind, floatChars (.finite negative m e) =
        Numeral.signChars negative ++ (before ++ '.' :: behind) ∧
      IsWhole before ∧ behind ≠ [] ∧ (∀ c ∈ behind, c.isDigit = true) ∧
      binary64.ofDecimal negative (Quoted.valueIn 10 (before ++ behind)) (0 - behind.length) =
        .finite negative m e := by
  rcases h with ⟨rfl, rfl⟩ | hfits
  · refine ⟨['0'], ['0'], ?_, ⟨by simp, by simp, by simp⟩, by simp, by simp, rfl⟩
    cases negative <;> rfl
  · obtain ⟨before, behind, htext, hposition⟩ :=
      exists_layPositional (digits_shortest_pos hfits .up) (shortest binary64 .up m e).place
    refine ⟨before, behind, ?_, hposition.isWhole, hposition.ne_nil, hposition.isDigit, ?_⟩
    · obtain ⟨k, rfl⟩ : ∃ k, m = k + 1 := ⟨m - 1, by have := hfits.pos; omega⟩
      rw [← htext]
      rfl
    · refine BinaryFormat.ofDecimal_eq negative (by decide) hfits ?_
      rw [hposition.value]
      exact contains_shortest .up hfits

end AgentLoop.Toml
