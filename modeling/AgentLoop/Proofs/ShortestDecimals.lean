import AgentLoop.Proofs.Rounding

/-!
# The shortest decimal is read as the number

The shortest decimal is looked for on one grid of powers of ten after the other.  What is found lies
in the interval of the number, and on a grid that is finer than the interval something is found.

* `Interval.contains_of_search` is about what is found, `Interval.exists_pick_of_fine` and
  `exists_search` say that something is.
* `contains_shortest` is the result for numbers of 64 bits: `zpow_ten_le` shows that the last of the
  grids is fine enough.
-/

namespace AgentLoop

namespace Interval

variable {i : Interval} {x : ℚ} {n tries : Nat} {place : Int} {tie : Tie} {d : Decimal}

/-- A point of the grid of whole units lies in the interval. -/
theorem holds_iff : i.holds (n * i.den) = true ↔ i.Contains n := by
  rw [contains_iff, holds]
  cases i.closed with
  | true =>
    simp only [if_true, Bool.and_eq_true, decide_eq_true_eq, reduceCtorEq, false_imp_iff, and_true]
    norm_cast
  | false =>
    simp only [Bool.false_eq_true, if_false, Bool.and_eq_true, decide_eq_true_eq, true_imp_iff]
    norm_cast
    omega

/-- An interval that is measured in other units. -/
theorem contains_inUnitsOf_iff :
    (i.inUnitsOf place).Contains x ↔ i.Contains (x * 10 ^ place) := by
  have hup : (0 : ℚ) < 10 ^ (-place).toNat := by positivity
  have hscaled : x * 10 ^ place * i.den = x * (i.den * 10 ^ place.toNat) / 10 ^ (-place).toNat := by
    rw [zpow_eq_div]
    ring
  simp only [contains_iff, inUnitsOf, Nat.pow_eq, hscaled]
  push_cast
  simp only [le_div_iff₀ hup, div_le_iff₀ hup, lt_div_iff₀ hup, div_lt_iff₀ hup]

/-- A point that is picked lies in the interval. -/
theorem contains_of_pick (h : i.pick tie = some n) : i.Contains n := by
  rw [← holds_iff]
  simp only [pick] at h
  split at h
  · cases h
  · next hdown _ =>
    cases h
    exact hdown
  · next _ hup =>
    cases h
    exact hup
  · next hdown hup =>
    split_ifs at h <;> cases h <;> assumption

/-- If the last point before the value lies in the interval, a point is picked. -/
theorem exists_pick (tie : Tie) (h : i.Contains (i.value / i.den : Nat)) :
    ∃ n, i.pick tie = some n := by
  have hdown := holds_iff.2 h
  simp only [pick, hdown]
  cases i.holds ((i.value / i.den + 1) * i.den) with
  | false => exact ⟨_, rfl⟩
  | true =>
    dsimp only
    split_ifs <;> exact ⟨_, rfl⟩

/-- A decimal that is found lies in the interval. -/
theorem contains_of_search (h : i.search tie tries place = some d) :
    i.Contains (d.digits * 10 ^ d.place) := by
  induction tries generalizing place with
  | zero => cases h
  | succ tries ih =>
    rw [search] at h
    split at h
    · next digits hpick =>
      cases h
      exact contains_inUnitsOf_iff.1 (contains_of_pick hpick)
    · exact ih h

/-- If a point of one of the grids is picked, a decimal is found. -/
theorem exists_search {k : Nat} (hk : k < tries)
    (h : ∃ n, (i.inUnitsOf (place - k)).pick tie = some n) :
    ∃ d, i.search tie tries place = some d := by
  induction tries generalizing place k with
  | zero => omega
  | succ tries ih =>
    rw [search]
    split
    · exact ⟨_, rfl⟩
    · next hnone =>
      cases k with
      | zero =>
        obtain ⟨n, hn⟩ := h
        rw [Nat.cast_zero, Int.sub_zero, hnone] at hn
        cases hn
      | succ k =>
        refine ih (k := k) (by omega) ?_
        rwa [show place - 1 - k = place - (k + 1 : Nat) by omega]

end Interval

variable {m : Nat} {e : Int}

/-- The value in other units is the value of the number. -/
theorem Interval.value_inUnitsOf (f : BinaryFormat) (m : Nat) (e place : Int) :
    (((Interval.of f m e).inUnitsOf place).value * 10 ^ place : ℚ) =
      m * 2 ^ e * ((Interval.of f m e).inUnitsOf place).den := by
  have hunit : (2 : ℚ) ^ e = 4 * 2 ^ (e - 2).toNat / 2 ^ (-(e - 2)).toNat := by
    rw [mul_div_assoc, ← zpow_eq_div, zpow_sub_two]
    ring
  simp only [inUnitsOf, Interval.of, Nat.pow_eq]
  rw [hunit, zpow_eq_div 10]
  push_cast
  field_simp

/-- A grid that is finer than a quarter of the last bit has a point in the interval. -/
theorem Interval.exists_pick_of_fine {f : BinaryFormat} {place : Int} (tie : Tie) (hpos : 0 < m)
    (hfine : (10 : ℚ) ^ place ≤ 2 ^ (e - 2)) :
    ∃ n, ((Interval.of f m e).inUnitsOf place).pick tie = some n := by
  have hvalue := Interval.value_inUnitsOf f m e place
  set j := (Interval.of f m e).inUnitsOf place with hj
  have hgrid : (0 : ℚ) < 10 ^ place := by positivity
  have hunit : (0 : ℚ) < 2 ^ e := by positivity
  have hden : 0 < j.den := by
    simp only [hj, inUnitsOf, Interval.of, Nat.pow_eq]
    positivity
  have hden' : (0 : ℚ) < j.den := by exact_mod_cast hden
  have hbelow : ((j.value / j.den : Nat) : ℚ) * 10 ^ place ≤ m * 2 ^ e := by
    have hle : ((j.value / j.den : Nat) : ℚ) * j.den ≤ j.value := by
      exact_mod_cast Nat.div_mul_le_self j.value j.den
    rw [← mul_le_mul_iff_left₀ hden', ← hvalue, mul_right_comm]
    exact mul_le_mul_of_nonneg_right hle hgrid.le
  have habove : m * 2 ^ e < (((j.value / j.den : Nat) : ℚ) + 1) * 10 ^ place := by
    have hlt : (j.value : ℚ) < ((j.value / j.den : Nat) + 1) * j.den := by
      exact_mod_cast Nat.lt_mul_of_div_lt (Nat.lt_succ_self _) hden
    rw [← mul_lt_mul_iff_left₀ hden', ← hvalue, mul_right_comm]
    exact mul_lt_mul_of_pos_right hlt hgrid
  have hquarter : (10 : ℚ) ^ place / 2 ^ e ≤ 1 / 4 := by
    rw [div_le_iff₀ hunit]
    refine hfine.trans_eq ?_
    rw [zpow_sub_two]
    ring
  have hreach := (quartersBelow_bounds f m e).1
  refine exists_pick tie ?_
  rw [hj, contains_inUnitsOf_iff, ← hj, contains_of_iff hpos]
  have hbelow' : ((j.value / j.den : Nat) : ℚ) * 10 ^ place / 2 ^ e ≤ m := by
    rwa [div_le_iff₀ hunit]
  have habove' : m < ((j.value / j.den : Nat) : ℚ) * 10 ^ place / 2 ^ e + 10 ^ place / 2 ^ e := by
    rwa [← add_div, lt_div_iff₀ hunit, ← add_one_mul]
  refine ⟨by linarith, by linarith, fun _ => ⟨by linarith, by linarith⟩⟩

/-- A power of ten is at most a power of two if its third power is. -/
theorem zpow_ten_le {q s : Int} (hpos : 0 ≤ q → 10 * q ≤ 3 * s) (hneg : q ≤ 0 → 3 * q ≤ s) :
    (10 : ℚ) ^ q ≤ 2 ^ s := by
  rcases le_total 0 q with hq | hq
  · rw [← pow_le_pow_iff_left₀ (by positivity) (by positivity) three_ne_zero]
    calc ((10 : ℚ) ^ q) ^ 3 = 1000 ^ q := by
          rw [← zpow_natCast, zpow_comm]
          norm_num
      _ ≤ 1024 ^ q := zpow_le_zpow_left₀ hq (by norm_num) (by norm_num)
      _ = 2 ^ (10 * q) := by
          rw [zpow_mul]
          norm_num
      _ ≤ 2 ^ (3 * s) := zpow_le_zpow_right₀ one_le_two (hpos hq)
      _ = (2 ^ s) ^ 3 := by
          rw [← zpow_natCast, ← zpow_mul, mul_comm]
          norm_num
  · exact ((BinaryFormat.zpow_ten_bounds q).2 hq).trans
      (zpow_le_zpow_right₀ one_le_two (hneg hq))

/-- The shortest decimal of a number of 64 bits is rounded to the number. -/
theorem contains_shortest (tie : Tie) (hfits : binary64.Fits m e) :
    (Interval.of binary64 m e).Contains
      ((shortest binary64 tie m e).digits * 10 ^ (shortest binary64 tie m e).place) := by
  have hlog : m.log2 < 53 := (Nat.log2_lt hfits.pos.ne').2 hfits.lt
  obtain ⟨hlow, hhigh⟩ : -1074 ≤ e ∧ e ≤ 971 := ⟨hfits.low, hfits.high⟩
  -- The grids go on for so long that even the smallest number gets one that is fine enough.
  have hfine : (10 : ℚ) ^ (placeAbove (m.log2 + 1 + e) - (54 : Nat)) ≤ 2 ^ (e - 2) := by
    rw [placeAbove]
    exact zpow_ten_le (by omega) (by omega)
  have htries : 54 < binary64.precision + 2 := by decide
  obtain ⟨d, hd⟩ := Interval.exists_search htries
    (Interval.exists_pick_of_fine (f := binary64) tie hfits.pos hfine)
  rw [shortest, hd]
  exact Interval.contains_of_search hd

end AgentLoop
