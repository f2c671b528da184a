import AgentLoop.Number.Shortest
import Mathlib.Algebra.Order.Field.Power
import Mathlib.Data.Rat.Cast.Order
import Mathlib.Tactic.FieldSimp
import Mathlib.Tactic.Linarith
import Mathlib.Tactic.MkIffOfInductiveProp
import Mathlib.Tactic.NormNum
import Mathlib.Tactic.Ring

/-!
# Rounding to a binary format

A number of a binary format stands for all reals in an interval around it: those are the reals that
are rounded to it.  Rounding is computed with natural numbers, in a scale that is found from bit
lengths; here it is compared with the interval, over the rationals.

* `BinaryFormat.Fits` says which significands and exponents belong to a format, and
  `Interval.Contains` that a rational lies in an interval.
* `BinaryFormat.round_eq` is the main result: a quotient in the interval of a number is rounded to
  the number.  Below a power of two the numbers lie closer, so the scale may be one too small; this
  is `round_eq_of_lt`.
* `BinaryFormat.ofDecimal_eq` is the same for decimal numerals, `roundShifted_eq` and `narrow_eq`
  for the change to another format.
* `BinaryFormat.narrow_narrow`: a number of 32 bits comes back from 64 bits as it was.
-/

namespace AgentLoop

/-- A power whose exponent is an integer, without negative exponents. -/
theorem zpow_eq_div (b : ℚ) (e : Int) : b ^ e = b ^ e.toNat / b ^ (-e).toNat := by
  obtain ⟨n, rfl | rfl⟩ := e.eq_nat_or_neg <;> simp

theorem zpow_sub_two (e : Int) : (2 : ℚ) ^ (e - 2) = 2 ^ e / 4 := by
  rw [zpow_sub₀ two_ne_zero]
  norm_num

/-! ## Rounding to an integer -/

/-- The integer is nearest to the number, and even if another one is as near. -/
structure RoundsTo (x : ℚ) (m : Nat) : Prop where
  low : m - 1 / 2 ≤ x
  high : x ≤ m + 1 / 2
  odd : m % 2 = 1 → m - 1 / 2 < x ∧ x < m + 1 / 2

/-- The conditions on a quotient, in natural numbers. -/
theorem RoundsTo.bounds {num den m : Nat} (hden : 0 < den) (h : RoundsTo (num / den) m) :
    2 * m * den ≤ 2 * num + den ∧ 2 * num ≤ 2 * m * den + den ∧
      (m % 2 = 1 → 2 * m * den < 2 * num + den ∧ 2 * num < 2 * m * den + den) := by
  have hpos : (0 : ℚ) < den := by exact_mod_cast hden
  obtain ⟨hlow, hhigh, hodd⟩ := h
  rw [le_div_iff₀ hpos] at hlow
  rw [div_le_iff₀ hpos] at hhigh
  have hlow' : (2 * m * den : ℚ) ≤ 2 * num + den := by linarith
  have hhigh' : (2 * num : ℚ) ≤ 2 * m * den + den := by linarith
  refine ⟨by exact_mod_cast hlow', by exact_mod_cast hhigh', fun hm => ?_⟩
  obtain ⟨hl, hh⟩ := hodd hm
  rw [lt_div_iff₀ hpos] at hl
  rw [div_lt_iff₀ hpos] at hh
  have hl' : (2 * m * den : ℚ) < 2 * num + den := by linarith
  have hh' : (2 * num : ℚ) < 2 * m * den + den := by linarith
  exact ⟨by exact_mod_cast hl', by exact_mod_cast hh'⟩

namespace BinaryFormat

theorem roundQuotient_eq {num den m : Nat} (hden : 0 < den) (h : RoundsTo (num / den) m) :
    roundQuotient num den = m := by
  obtain ⟨hlow, hhigh, hodd⟩ := h.bounds hden
  obtain ⟨q, r, hr, rfl⟩ : ∃ q r, r < den ∧ num = den * q + r :=
    ⟨num / den, num % den, Nat.mod_lt _ hden, (Nat.div_add_mod num den).symm⟩
  have hq : (den * q + r) / den = q := by
    rw [Nat.mul_add_div hden, Nat.div_eq_of_lt hr, Nat.add_zero]
  have hrem : (den * q + r) % den = r := by
    rw [Nat.mul_add_mod, Nat.mod_eq_of_lt hr]
  have hle : q ≤ m := by
    by_contra hlt
    have : (m + 1) * den ≤ q * den := Nat.mul_le_mul_right _ (by omega)
    nlinarith
  have hge : m ≤ q + 1 := by
    by_contra hlt
    have : (q + 2) * den ≤ m * den := Nat.mul_le_mul_right _ (by omega)
    nlinarith
  rw [roundQuotient, hq, hrem]
  obtain rfl | rfl : m = q ∨ m = q + 1 := by omega
  · have hsmall : 2 * r ≤ den := by nlinarith
    have hstrict : m % 2 = 1 → 2 * r < den := by
      intro hm
      have := hodd hm
      nlinarith
    split_ifs <;> omega
  · have hlarge : den ≤ 2 * r := by nlinarith
    have hstrict : (q + 1) % 2 = 1 → den < 2 * r := by
      intro hm
      have := hodd hm
      nlinarith
    split_ifs <;> omega

theorem roundScaled_eq {num den m : Nat} {scale : Int} (hden : 0 < den)
    (h : RoundsTo (num / den / 2 ^ scale) m) : roundScaled num den scale = m := by
  rw [zpow_eq_div] at h
  rw [roundScaled]
  simp only [Nat.pow_eq]
  split
  · next hscale =>
    rw [Int.toNat_of_nonpos (z := -scale) (by omega)] at h
    exact roundQuotient_eq (by positivity) (by simpa [div_div] using h)
  · next hscale =>
    rw [Int.toNat_of_nonpos (z := scale) (by omega)] at h
    exact roundQuotient_eq hden (by simpa [div_mul_eq_mul_div] using h)

variable {f : BinaryFormat}

theorem zpow_log2_le {n : Nat} (h : 0 < n) : (2 : ℚ) ^ (n.log2 : Int) ≤ n := by
  have := Nat.log2_self_le h.ne'
  rw [zpow_natCast]
  exact_mod_cast this

theorem lt_zpow_log2 (n : Nat) : (n : ℚ) < 2 ^ (n.log2 + 1 : Int) := by
  have := Nat.lt_log2_self (n := n)
  have hcast : (n.log2 + 1 : Int) = ((n.log2 + 1 : Nat) : Int) := by push_cast; rfl
  rw [hcast, zpow_natCast]
  exact_mod_cast this

/-- A comparison of a quotient with a power of two, in natural numbers. -/
theorem fits_iff {num den precision : Nat} (hden : 0 < den) (scale : Int) :
    (if 0 ≤ scale then decide (num < den * Nat.pow 2 (precision + scale.toNat))
      else decide (num * Nat.pow 2 (-scale).toNat < den * Nat.pow 2 precision)) = true ↔
      (num / den : ℚ) < 2 ^ (precision + scale) := by
  have hd : (0 : ℚ) < den := by exact_mod_cast hden
  rw [zpow_add₀ two_ne_zero, zpow_natCast, zpow_eq_div 2 scale, div_lt_iff₀ hd, ← mul_div_assoc]
  simp only [Nat.pow_eq]
  split
  · next hscale =>
    rw [Int.toNat_of_nonpos (z := -scale) (by omega), decide_eq_true_eq, pow_add,
      ← Nat.cast_lt (α := ℚ)]
    push_cast
    rw [pow_zero, div_one, mul_comm (den : ℚ)]
  · next hscale =>
    rw [Int.toNat_of_nonpos (z := scale) (by omega), decide_eq_true_eq, ← Nat.cast_lt (α := ℚ),
      pow_zero, mul_one, div_mul_eq_mul_div, lt_div_iff₀ (by positivity)]
    push_cast
    rw [mul_comm (den : ℚ)]

/-- The bit lengths tell within a factor of two how large a quotient is. -/
theorem quotient_bounds {num den : Nat} (hnum : 0 < num) (hden : 0 < den) :
    (2 : ℚ) ^ ((num.log2 : Int) - den.log2 - 1) ≤ num / den ∧
      (num / den : ℚ) < 2 ^ ((num.log2 : Int) - den.log2 + 1) := by
  have hd : (0 : ℚ) < den := by exact_mod_cast hden
  constructor
  · rw [le_div_iff₀ hd]
    calc (2 : ℚ) ^ ((num.log2 : Int) - den.log2 - 1) * den
        ≤ 2 ^ ((num.log2 : Int) - den.log2 - 1) * 2 ^ (den.log2 + 1 : Int) := by
          have := lt_zpow_log2 den
          gcongr
      _ = 2 ^ (num.log2 : Int) := by
          rw [← zpow_add₀ two_ne_zero]
          congr 1
          omega
      _ ≤ num := zpow_log2_le hnum
  · rw [div_lt_iff₀ hd]
    calc (num : ℚ) < 2 ^ (num.log2 + 1 : Int) := lt_zpow_log2 num
      _ = 2 ^ ((num.log2 : Int) - den.log2 + 1) * 2 ^ (den.log2 : Int) := by
          rw [← zpow_add₀ two_ne_zero]
          congr 1
          omega
      _ ≤ 2 ^ ((num.log2 : Int) - den.log2 + 1) * den := by
          have := zpow_log2_le hden
          gcongr

theorem lt_of_zpow_lt {a b : Int} (h : (2 : ℚ) ^ a < 2 ^ b) : a < b :=
  (zpow_lt_zpow_iff_right₀ one_lt_two).1 h

/-- The scale of a quotient is the smallest one, or the quotient has all bits in it. -/
theorem scaleOf_eq {num den : Nat} {s : Int} (hnum : 0 < num) (hden : 0 < den)
    (hmin : f.minScale ≤ s) (hhigh : (num / den : ℚ) < 2 ^ (f.precision + s))
    (hlow : f.minScale < s → (2 : ℚ) ^ (f.precision + s - 1) ≤ num / den) :
    f.scaleOf num den = s := by
  obtain ⟨hbelow, habove⟩ := quotient_bounds hnum hden
  -- The estimate is the scale or one too small; where it fits, it is not too small.
  rw [scaleOf]
  simp only [fits_iff hden]
  split
  · next hfits =>
    have := lt_of_zpow_lt (hbelow.trans_lt hhigh)
    rcases hmin.eq_or_lt with rfl | hmin
    · omega
    · have := lt_of_zpow_lt ((hlow hmin).trans_lt hfits)
      omega
  · next hfits =>
    have := lt_of_zpow_lt ((not_lt.1 hfits).trans_lt hhigh)
    rcases hmin.eq_or_lt with rfl | hmin
    · omega
    · have := lt_of_zpow_lt ((hlow hmin).trans_lt habove)
      omega

/-! ## Numbers of a format -/

/-- A positive number of the format, in the least exponent that is possible. -/
structure Fits (f : BinaryFormat) (m : Nat) (e : Int) : Prop where
  pos : 0 < m
  lt : m < 2 ^ f.precision
  low : f.minScale ≤ e
  high : e ≤ f.maxScale
  normal : f.minScale < e → 2 ^ (f.precision - 1) ≤ m

end BinaryFormat

namespace Interval

/-- The number lies in the interval. -/
@[mk_iff]
structure Contains (i : Interval) (x : ℚ) : Prop where
  low : i.low ≤ x * i.den
  high : x * i.den ≤ i.high
  inside : i.closed = false → i.low < x * i.den ∧ x * i.den < i.high

variable {f : BinaryFormat} {m : Nat} {e : Int} {x : ℚ}

/-- How far below a number its interval reaches, in quarters of the unit of its last bit. -/
def quartersBelow (f : BinaryFormat) (m : Nat) (e : Int) : Nat :=
  if m = 2 ^ (f.precision - 1) ∧ f.minScale < e then 1 else 2

theorem quartersBelow_bounds (f : BinaryFormat) (m : Nat) (e : Int) :
    (1 : ℚ) ≤ quartersBelow f m e ∧ (quartersBelow f m e : ℚ) ≤ 2 := by
  rw [quartersBelow]
  split <;> norm_num

/-- The interval of a number, in units of its last bit. -/
theorem contains_of_iff (hpos : 0 < m) :
    (Interval.of f m e).Contains x ↔
      m - quartersBelow f m e / 4 ≤ x / 2 ^ e ∧ x / 2 ^ e ≤ m + 1 / 2 ∧
      (m % 2 = 1 → m - quartersBelow f m e / 4 < x / 2 ^ e ∧ x / 2 ^ e < m + 1 / 2) := by
  have hquarters : quartersBelow f m e ≤ 4 * m := by
    rw [quartersBelow]
    split <;> omega
  have hunit : (0 : ℚ) < 2 ^ e := by positivity
  have hden : (0 : ℚ) < 2 ^ (-(e - 2)).toNat := by positivity
  have hup : (2 : ℚ) ^ (e - 2).toNat = 2 ^ e / 4 * 2 ^ (-(e - 2)).toNat := by
    rw [← div_eq_iff hden.ne', ← zpow_eq_div, zpow_sub_two]
  have hlow : ((Interval.of f m e).low : ℚ) =
      (m - quartersBelow f m e / 4) * 2 ^ e * 2 ^ (-(e - 2)).toNat := by
    simp only [Interval.of, Nat.pow_eq]
    rw [← quartersBelow]
    push_cast [Nat.cast_sub hquarters]
    rw [hup]
    ring
  have hhigh : ((Interval.of f m e).high : ℚ) =
      (m + 1 / 2) * 2 ^ e * 2 ^ (-(e - 2)).toNat := by
    simp only [Interval.of, Nat.pow_eq]
    push_cast
    rw [hup]
    ring
  have hscaled : ((Interval.of f m e).den : ℚ) = 2 ^ (-(e - 2)).toNat := by
    simp [Interval.of]
  have hclosed : (Interval.of f m e).closed = false ↔ m % 2 = 1 := by
    simp [Interval.of]
  simp only [contains_iff, hclosed, hlow, hhigh, hscaled, mul_le_mul_iff_left₀ hden,
    mul_lt_mul_iff_left₀ hden, ← le_div_iff₀ hunit, ← div_le_iff₀ hunit, ← lt_div_iff₀ hunit,
    ← div_lt_iff₀ hunit]

end Interval

namespace BinaryFormat

variable {f : BinaryFormat} {m num den : Nat} {e : Int}

/-- What is left to do when the scale of a quotient is known. -/
theorem round_eq_of_scaleOf {s : Int} (negative : Bool) (hnum : 0 < num) (hden : 0 < den)
    (hscale : f.scaleOf num den = s) (hround : RoundsTo (num / den / 2 ^ s) m) :
    f.round negative num den =
      if m = 2 ^ f.precision then
        if f.maxScale < s + 1 then .infinite negative
        else .finite negative (2 ^ (f.precision - 1)) (s + 1)
      else if f.maxScale < s then .infinite negative else .finite negative m s := by
  rw [round, if_neg hnum.ne']
  simp only [hscale, roundScaled_eq hden hround, Nat.pow_eq]
  split <;> rfl

/-- Below a power of two the last bit counts half as much. -/
theorem round_eq_of_lt (negative : Bool) (hprecision : 2 ≤ f.precision) (hmin : f.minScale < e)
    (hmax : e ≤ f.maxScale) (hnum : 0 < num) (hden : 0 < den)
    (hlow : (2 : ℚ) ^ (f.precision - 1) - 1 / 4 ≤ num / den / 2 ^ e)
    (hlt : (num / den / 2 ^ e : ℚ) < 2 ^ (f.precision - 1)) :
    f.round negative num den = .finite negative (2 ^ (f.precision - 1)) e := by
  have hdouble : (2 : ℚ) ^ f.precision = 2 * 2 ^ (f.precision - 1) := by
    rw [← pow_succ', Nat.sub_add_cancel (by omega)]
  have hbits : (2 : ℚ) ≤ 2 ^ (f.precision - 1) := le_self_pow₀ one_le_two (by omega)
  have hscaled : (num / den / 2 ^ (e - 1) : ℚ) = 2 * (num / den / 2 ^ e) := by
    rw [zpow_sub₀ two_ne_zero, zpow_one]
    field_simp
  have hscale : f.scaleOf num den = e - 1 := by
    refine scaleOf_eq hnum hden (by omega) ?_ fun _ => ?_
    · rw [zpow_add₀ two_ne_zero, zpow_natCast, ← div_lt_iff₀ (by positivity), hscaled]
      linarith
    · rw [show f.precision + (e - 1) - 1 = ((f.precision - 1 : Nat) : Int) + (e - 1) by omega,
        zpow_add₀ two_ne_zero, zpow_natCast, ← le_div_iff₀ (by positivity), hscaled]
      linarith
  have hround : RoundsTo (num / den / 2 ^ (e - 1)) (2 ^ f.precision) := by
    have heven : 2 ^ f.precision % 2 = 0 := by
      rw [Nat.pow_mod, Nat.mod_self, Nat.zero_pow (by omega)]
    rw [hscaled]
    refine ⟨?_, ?_, fun hodd => by omega⟩ <;>
    · push_cast
      linarith
  rw [round_eq_of_scaleOf negative hnum hden hscale hround, if_pos rfl, if_neg (by omega),
    Int.sub_add_cancel]

/-- A quotient in the interval of a number is rounded to this number. -/
theorem round_eq (negative : Bool) (hprecision : 2 ≤ f.precision) (hfits : f.Fits m e)
    (hden : 0 < den) (h : (Interval.of f m e).Contains (num / den)) :
    f.round negative num den = .finite negative m e := by
  obtain ⟨hlow, hhigh, hodd⟩ := (Interval.contains_of_iff hfits.pos).1 h
  have hunit : (0 : ℚ) < 2 ^ e := by positivity
  have hone : (1 : ℚ) ≤ m := by exact_mod_cast hfits.pos
  have hreach := (Interval.quartersBelow_bounds f m e).2
  have hnum : 0 < num := by
    rcases Nat.eq_zero_or_pos num with rfl | hnum
    · rw [Nat.cast_zero, zero_div, zero_div] at hlow
      linarith
    · exact hnum
  by_cases hfull : f.minScale < e → (2 : ℚ) ^ (f.precision + e - 1) ≤ num / den
  · have habove : (num / den : ℚ) < 2 ^ (f.precision + e) := by
      have hlt : (m : ℚ) + 1 ≤ 2 ^ f.precision := by exact_mod_cast hfits.lt
      rw [zpow_add₀ two_ne_zero, zpow_natCast, ← div_lt_iff₀ hunit]
      linarith
    have hscale := scaleOf_eq hnum hden hfits.low habove hfull
    have hround : RoundsTo (num / den / 2 ^ e) m :=
      ⟨by linarith, hhigh, fun hm => ⟨by linarith [hodd hm], (hodd hm).2⟩⟩
    rw [round_eq_of_scaleOf negative hnum hden hscale hround, if_neg hfits.lt.ne,
      if_neg (not_lt.2 hfits.high)]
  · -- The number is a power of two, and the quotient lies just below it.
    obtain ⟨hmin, hbelow⟩ := Classical.not_imp.1 hfull
    rw [not_le, show f.precision + e - 1 = ((f.precision - 1 : Nat) : Int) + e by omega,
      zpow_add₀ two_ne_zero, zpow_natCast, ← div_lt_iff₀ hunit] at hbelow
    have hpower : m = 2 ^ (f.precision - 1) := by
      refine le_antisymm (Nat.lt_succ_iff.1 ?_) (hfits.normal hmin)
      have : (m : ℚ) < 2 ^ (f.precision - 1) + 1 := by linarith
      exact_mod_cast this
    rw [Interval.quartersBelow, if_pos ⟨hpower, hmin⟩] at hlow
    subst hpower
    push_cast at hlow
    exact round_eq_of_lt negative hprecision hmin hfits.high hnum hden hlow hbelow

/-- A scaled quotient in the interval of a number is rounded to this number. -/
theorem roundShifted_eq {k : Int} (negative : Bool) (hprecision : 2 ≤ f.precision)
    (hfits : f.Fits m e) (hden : 0 < den) (h : (Interval.of f m e).Contains (num / den * 2 ^ k)) :
    f.roundShifted negative num den k = .finite negative m e := by
  rw [zpow_eq_div] at h
  rw [roundShifted]
  simp only [Nat.pow_eq]
  split
  · next hk =>
    rw [Int.toNat_of_nonpos (z := -k) (by omega)] at h
    refine round_eq negative hprecision hfits hden ?_
    simpa [div_mul_eq_mul_div] using h
  · next hk =>
    rw [Int.toNat_of_nonpos (z := k) (by omega)] at h
    refine round_eq negative hprecision hfits (by positivity) ?_
    simpa [div_div, ← div_eq_mul_inv] using h

/-- What is rounded to a positive number is neither too large nor too small for the format. -/
theorem bounds_of_contains {x : ℚ} (hfits : f.Fits m e) (h : (Interval.of f m e).Contains x) :
    2 ^ (f.minScale - 1) ≤ x ∧ x < 2 ^ (f.maxExponent + 1 : Int) := by
  obtain ⟨hlow, hhigh, -⟩ := (Interval.contains_of_iff hfits.pos).1 h
  have hunit : (0 : ℚ) < 2 ^ e := by positivity
  have hone : (1 : ℚ) ≤ m := by exact_mod_cast hfits.pos
  have hlt : (m : ℚ) + 1 ≤ 2 ^ f.precision := by exact_mod_cast hfits.lt
  have hreach := (Interval.quartersBelow_bounds f m e).2
  constructor
  · calc (2 : ℚ) ^ (f.minScale - 1) ≤ 2 ^ (e - 1) :=
          zpow_le_zpow_right₀ one_le_two (by have := hfits.low; omega)
      _ = 1 / 2 * 2 ^ e := by
          rw [zpow_sub₀ two_ne_zero, zpow_one]
          ring
      _ ≤ x := by
          rw [← le_div_iff₀ hunit]
          linarith
  · calc x < 2 ^ f.precision * 2 ^ e := by
          rw [← div_lt_iff₀ hunit]
          linarith
      _ = 2 ^ (f.precision + e) := by rw [zpow_add₀ two_ne_zero, zpow_natCast]
      _ ≤ 2 ^ (f.maxExponent + 1 : Int) :=
          zpow_le_zpow_right₀ one_le_two (by have := hfits.high; rw [maxScale] at this; omega)

/-- A power of ten lies between powers of two. -/
theorem zpow_ten_bounds (k : Int) :
    (2 : ℚ) ^ (min (3 * k) (4 * k)) ≤ 10 ^ k ∧ (k ≤ 0 → (10 : ℚ) ^ k ≤ 2 ^ (3 * k)) := by
  have height : (2 : ℚ) ^ (3 * k) = 8 ^ k := by
    rw [zpow_mul]
    norm_num
  have hsixteen : (2 : ℚ) ^ (4 * k) = 16 ^ k := by
    rw [zpow_mul]
    norm_num
  rcases le_total 0 k with hk | hk
  · rw [min_eq_left (by omega), height]
    refine ⟨zpow_le_zpow_left₀ hk (by norm_num) (by norm_num), fun hle => ?_⟩
    rw [le_antisymm hle hk, zpow_zero, zpow_zero]
  · obtain ⟨n, rfl⟩ := Int.exists_eq_neg_ofNat hk
    rw [min_eq_right (by omega), hsixteen, height]
    simp only [zpow_neg, zpow_natCast]
    refine ⟨inv_anti₀ (by positivity) ?_, fun _ => inv_anti₀ (by positivity) ?_⟩ <;>
    · gcongr
      norm_num

/-- A decimal in the interval of a number is rounded to this number; its exponent is neither so
large nor so small that it would not be looked at. -/
theorem ofDecimal_eq {digits : Nat} {k : Int} (negative : Bool) (hprecision : 2 ≤ f.precision)
    (hfits : f.Fits m e) (h : (Interval.of f m e).Contains (digits * 10 ^ k)) :
    f.ofDecimal negative digits k = .finite negative m e := by
  obtain ⟨hlow, hhigh⟩ := bounds_of_contains hfits h
  have hdigits : 0 < digits := by
    rcases Nat.eq_zero_or_pos digits with rfl | hdigits
    · have : (0 : ℚ) < 2 ^ (f.minScale - 1) := by positivity
      rw [Nat.cast_zero, zero_mul] at hlow
      linarith
    · exact hdigits
  have hlarge : (digits.log2 : Int) + min (3 * k) (4 * k) < f.maxExponent + 1 := by
    refine lt_of_zpow_lt (lt_of_le_of_lt ?_ hhigh)
    rw [zpow_add₀ two_ne_zero]
    have := zpow_log2_le hdigits
    have := (zpow_ten_bounds k).1
    gcongr
  have hsmall : k ≤ 0 → f.minScale - 1 < digits.log2 + 1 + 3 * k := by
    intro hk
    refine lt_of_zpow_lt (lt_of_le_of_lt hlow ?_)
    rw [zpow_add₀ two_ne_zero]
    exact mul_lt_mul (lt_zpow_log2 digits) ((zpow_ten_bounds k).2 hk) (by positivity)
      (by positivity)
  rw [minScale] at hsmall
  rw [ofDecimal, if_neg hdigits.ne']
  simp only [Nat.pow_eq]
  rw [if_neg (by omega), if_neg (by omega)]
  rw [zpow_eq_div] at h
  split
  · next hk =>
    rw [Int.toNat_of_nonpos (z := -k) (by omega)] at h
    exact round_eq negative hprecision hfits one_pos (by simpa using h)
  · next hk =>
    rw [Int.toNat_of_nonpos (z := k) (by omega)] at h
    exact round_eq negative hprecision hfits (by positivity) (by simpa [div_eq_mul_inv] using h)

/-! ## From one format to another -/

theorem contains_self (hpos : 0 < m) : (Interval.of f m e).Contains (m * 2 ^ e) := by
  have hquarters := (Interval.quartersBelow_bounds f m e).1
  rw [Interval.contains_of_iff hpos, mul_div_cancel_right₀ _ (by positivity)]
  refine ⟨by linarith, by linarith, fun _ => ⟨by linarith, by linarith⟩⟩

/-- The number is one of the format, in the form that is its own. -/
def Represents (f : BinaryFormat) : Binary → Prop
  | .finite _ m e => m = 0 ∧ e = f.minScale ∨ f.Fits m e
  | _ => True

/-- A number of another format with the same value. -/
theorem narrow_eq {m' : Nat} {e' : Int} (negative : Bool) (hprecision : 2 ≤ f.precision)
    (hfits : f.Fits m e) (hvalue : (m' * 2 ^ e' : ℚ) = m * 2 ^ e) :
    f.narrow (.finite negative m' e') = .finite negative m e := by
  rw [narrow]
  refine roundShifted_eq negative hprecision hfits one_pos ?_
  rw [Nat.cast_one, div_one, hvalue]
  exact contains_self hfits.pos

theorem narrow_zero (negative : Bool) (e' : Int) :
    f.narrow (.finite negative 0 e') = f.zero negative := by
  rw [narrow, roundShifted, Nat.zero_mul, round, round, if_pos rfl, if_pos rfl, ite_self]

/-- Each positive number of 32 bits is one of 64 bits. -/
theorem exists_fits64 (h : binary32.Fits m e) :
    ∃ m' e', binary64.Fits m' e' ∧ (m' * 2 ^ e' : ℚ) = m * 2 ^ e := by
  have hlog : m.log2 < 24 := (Nat.log2_lt h.pos.ne').2 h.lt
  have hbelow := Nat.log2_self_le h.pos.ne'
  have habove := Nat.lt_log2_self (n := m)
  obtain ⟨hlow, hhigh⟩ : -149 ≤ e ∧ e ≤ 104 := ⟨h.low, h.high⟩
  have hpow : 2 ^ m.log2 * 2 ^ (52 - m.log2) = 2 ^ 52 := by
    rw [← pow_add]
    congr 1
    omega
  -- The significand is filled up to 53 bits.
  refine ⟨m * 2 ^ (52 - m.log2), e - (52 - m.log2 : Nat), ⟨?_, ?_, ?_, ?_, fun _ => ?_⟩, ?_⟩
  · exact Nat.mul_pos h.pos (by positivity)
  · calc m * 2 ^ (52 - m.log2) < 2 ^ (m.log2 + 1) * 2 ^ (52 - m.log2) :=
          Nat.mul_lt_mul_of_pos_right habove (by positivity)
      _ = 2 ^ 53 := by rw [pow_succ, Nat.mul_right_comm, hpow, ← pow_succ]
  · simp only [minScale, binary64]
    omega
  · simp only [maxScale, binary64]
    omega
  · calc 2 ^ 52 = 2 ^ m.log2 * 2 ^ (52 - m.log2) := hpow.symm
      _ ≤ m * 2 ^ (52 - m.log2) := Nat.mul_le_mul_right _ hbelow
  · rw [zpow_sub₀ two_ne_zero, zpow_natCast]
    push_cast
    field_simp

/-- A number of 32 bits keeps its value among the numbers of 64 bits. -/
theorem narrow_narrow {x : Binary} (h : binary32.Represents x) :
    binary64.Represents (binary64.narrow x) ∧ binary32.narrow (binary64.narrow x) = x := by
  cases x with
  | finite negative m e =>
    rcases h with ⟨rfl, rfl⟩ | hfits
    · rw [narrow_zero, zero, narrow_zero]
      exact ⟨.inl ⟨rfl, rfl⟩, rfl⟩
    · obtain ⟨m', e', hfits', hvalue⟩ := exists_fits64 hfits
      rw [narrow_eq negative (by decide) hfits' hvalue.symm,
        narrow_eq negative (by decide) hfits hvalue]
      exact ⟨.inr hfits', rfl⟩
  | infinite negative => exact ⟨trivial, rfl⟩
  | nan => exact ⟨trivial, rfl⟩

end BinaryFormat

end AgentLoop
