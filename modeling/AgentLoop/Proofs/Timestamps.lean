import AgentLoop.Proofs.Trimming
import AgentLoop.Time.Rfc3339
import Mathlib.Tactic.IntervalCases

/-!
# Timestamps are read back

A timestamp of a year with four digits is read back from its text, also within a leap second.

* The calendar.  A day is found in an era of four centuries by its century, its four years, its year
  and its day of the year, counted from March (`exists_parts`).  `days_ofDays` and `isValid_ofDays`
  say that `Date.ofDays` gives a date that there is, and the right one.
* `padded_spec` says how a number is written with a fixed width, `digits?_padded` how digits are
  read, `fraction?_fractionChars` the same of a fraction of a second.
* `read?_write` is the result.
-/

namespace AgentLoop

namespace Date

/-! ## The calendar -/

/-- A day of a year that begins in March, as a date. -/
def ofMarch (year dayOfYear : Int) : Date :=
  let monthFromMarch := (5 * dayOfYear + 2) / 153
  let day := dayOfYear - (153 * monthFromMarch + 2) / 5 + 1
  let month := if monthFromMarch < 10 then monthFromMarch + 3 else monthFromMarch - 9
  ⟨if month ≤ 2 then year + 1 else year, month.toNat, day.toNat⟩

/-- The year of a day of an era of four hundred years, which begins in March. -/
def yearOfEra (doe : Int) : Int := (doe - doe / 1460 + doe / 36524 - doe / 146096) / 365

/-- The days before a year of an era. -/
def daysBefore (yoe : Int) : Int := 365 * yoe + yoe / 4 - yoe / 100

theorem exists_century {doe : Int} (h0 : 0 ≤ doe) (h1 : doe < 146097) :
    ∃ c r : Int, doe = 36524 * c + r ∧ 0 ≤ c ∧ c ≤ 3 ∧ 0 ≤ r ∧ (r < 36524 ∨ r = 36524 ∧ c = 3) := by
  by_cases hlast : doe = 146096
  · exact ⟨3, 36524, by omega⟩
  · exact ⟨doe / 36524, doe % 36524, by omega⟩

theorem exists_parts {doe : Int} (h0 : 0 ≤ doe) (h1 : doe < 146097) :
    ∃ c q y d : Int, doe = 36524 * c + 1461 * q + 365 * y + d ∧ 0 ≤ c ∧ c ≤ 3 ∧ 0 ≤ q ∧ q ≤ 24 ∧
      0 ≤ y ∧ y ≤ 3 ∧ 0 ≤ d ∧ (d < 365 ∨ d = 365 ∧ y = 3 ∧ (q < 24 ∨ c = 3)) := by
  obtain ⟨c, r, rfl, hc, hc', hr, hr'⟩ := exists_century h0 h1
  clear h0 h1
  obtain ⟨q, s, rfl, hq, hq', hs, hs'⟩ : ∃ q s : Int, r = 1461 * q + s ∧ 0 ≤ q ∧ q ≤ 24 ∧ 0 ≤ s ∧
      (s < 1460 ∨ s = 1460 ∧ (q < 24 ∨ c = 3)) :=
    ⟨r / 1461, r % 1461, by omega⟩
  clear hr hr'
  by_cases hlast : s = 1460
  · exact ⟨c, q, 3, 365, by omega⟩
  · exact ⟨c, q, s / 365, s % 365, by omega⟩

theorem yearOfEra_parts {c q y d : Int} (hc : 0 ≤ c) (hc' : c ≤ 3) (hq : 0 ≤ q) (hq' : q ≤ 24)
    (hy : 0 ≤ y) (hy' : y ≤ 3) (hd : 0 ≤ d) (hd' : d < 365 ∨ d = 365 ∧ y = 3 ∧ (q < 24 ∨ c = 3)) :
    yearOfEra (36524 * c + 1461 * q + 365 * y + d) = 100 * c + 4 * q + y := by
  rw [yearOfEra]
  have h100 : (36524 * c + 1461 * q + 365 * y + d) / 36524 -
      (36524 * c + 1461 * q + 365 * y + d) / 146096 = c := by
    by_cases hlast : 1461 * q + 365 * y + d = 36524
    · obtain rfl : c = 3 := by omega
      omega
    · have hcentury : (36524 * c + 1461 * q + 365 * y + d) / 36524 = c := by omega
      have hera : (36524 * c + 1461 * q + 365 * y + d) / 146096 = 0 := by omega
      omega
  have h4 : (36524 * c + 1461 * q + 365 * y + d) / 1460 =
      25 * c + q + (24 * c + q + 365 * y + d) / 1460 := by
    omega
  have hlow : (24 * c + q + 365 * y + d) / 1460 = 0 ∨
      (24 * c + q + 365 * y + d) / 1460 = 1 ∧ y = 3 ∧ 1 ≤ d := by
    omega
  rcases hlow with hlow | ⟨hlow, rfl, hd1⟩
  · have hshort : d ≠ 365 := by omega
    omega
  · omega

theorem days_ofMarch {year d : Int} (hd : 0 ≤ d) (hd' : d ≤ 365) :
    (ofMarch year d).days =
      year / 400 * 146097 + daysBefore (year - year / 400 * 400) + d - 719468 := by
  obtain ⟨m, hm, hm0, hm11⟩ : ∃ m : Int, (5 * d + 2) / 153 = m ∧ 0 ≤ m ∧ m ≤ 11 :=
    ⟨_, rfl, by omega⟩
  simp only [ofMarch, days, daysBefore, hm]
  interval_cases m <;> simp <;> omega

theorem isValid_ofMarch {year d : Int} (hd : 0 ≤ d)
    (hd' : d < 365 ∨ d = 365 ∧ isLeap (year + 1) = true) :
    (ofMarch year d).isValid = true := by
  obtain ⟨m, hm, hm0, hm11⟩ : ∃ m : Int, (5 * d + 2) / 153 = m ∧ 0 ≤ m ∧ m ≤ 11 :=
    ⟨_, rfl, by omega⟩
  simp only [ofMarch, isValid, hm]
  interval_cases m <;> simp [daysInMonth]
  all_goals try omega
  · rcases hd' with hd' | ⟨rfl, hleap⟩
    · split <;> omega
    · simp [hleap]

/-- The date of a day is in a year that begins in March, and has the number of that day. -/
theorem exists_ofMarch (n : Int) :
    ∃ year d, ofDays n = ofMarch year d ∧ 0 ≤ d ∧ (d < 365 ∨ d = 365 ∧ isLeap (year + 1) = true) ∧
      year / 400 * 146097 + daysBefore (year - year / 400 * 400) + d - 719468 = n := by
  obtain ⟨era, doe, hera, hdoe, hlow, hhigh⟩ : ∃ era doe : Int, (n + 719468) / 146097 = era ∧
      n + 719468 - (n + 719468) / 146097 * 146097 = doe ∧ 0 ≤ doe ∧ doe < 146097 :=
    ⟨_, _, rfl, rfl, by omega⟩
  obtain ⟨c, q, y, d, hparts, hc, hc', hq, hq', hy, hy', hd, hd'⟩ := exists_parts hlow hhigh
  have hyear : yearOfEra doe = 100 * c + 4 * q + y := by
    rw [hparts]
    exact yearOfEra_parts hc hc' hq hq' hy hy' hd hd'
  have hbefore : daysBefore (100 * c + 4 * q + y) = 36524 * c + 1461 * q + 365 * y := by
    rw [daysBefore]
    omega
  have hofDays : ofDays n =
      ofMarch (yearOfEra doe + era * 400) (doe - daysBefore (yearOfEra doe)) := by
    rw [← hdoe, ← hera]
    rfl
  have hday : doe - daysBefore (yearOfEra doe) = d := by
    rw [hyear, hbefore]
    omega
  have hsame : (100 * c + 4 * q + y + era * 400) / 400 = era := by omega
  refine ⟨100 * c + 4 * q + y + era * 400, d, by rw [hofDays, hday, hyear], hd, ?_, ?_⟩
  · rcases hd' with hd' | ⟨hd', rfl, hlast⟩
    · exact .inl hd'
    · refine .inr ⟨hd', ?_⟩
      simp only [isLeap, Bool.and_eq_true, beq_iff_eq, Bool.or_eq_true, bne_iff_ne]
      omega
  · rw [hsame, Int.add_sub_cancel, hbefore]
    omega

theorem days_ofDays (n : Int) : (ofDays n).days = n := by
  obtain ⟨year, d, hdate, hd, hd', hdays⟩ := exists_ofMarch n
  rw [hdate, days_ofMarch hd (by omega), hdays]

theorem isValid_ofDays (n : Int) : (ofDays n).isValid = true := by
  obtain ⟨year, d, hdate, hd, hd', -⟩ := exists_ofMarch n
  rw [hdate]
  exact isValid_ofMarch hd hd'

theorem bounds_of_isValid {d : Date} (h : d.isValid = true) :
    1 ≤ d.month ∧ d.month ≤ 12 ∧ 1 ≤ d.day ∧ d.day ≤ 31 := by
  simp only [isValid, Bool.and_eq_true, decide_eq_true_eq] at h
  obtain ⟨hday, hmonth⟩ := h
  unfold daysInMonth at hmonth
  split at hmonth <;> (try split at hmonth) <;> omega

end Date

namespace Timestamp

/-- A date of a year with four digits is one that a timestamp may have. -/
theorem hasDay_of_year {d : Date} (hvalid : d.isValid = true) (hlow : 0 ≤ d.year)
    (hhigh : d.year ≤ 9999) : hasDay d.days = true := by
  obtain ⟨hmonth, hmonth', hday, hday'⟩ := Date.bounds_of_isValid hvalid
  have hfirst : firstDay.days = -96465292 := by decide
  have hlast : lastDay.days = 95026236 := by decide
  have hdays : -1000000 ≤ d.days ∧ d.days ≤ 3000000 := by
    simp only [Date.days]
    split <;> omega
  rw [hasDay, hfirst, hlast, Bool.and_eq_true, decide_eq_true_eq, decide_eq_true_eq]
  omega

/-! ## Digits -/

theorem numberOf_eq (digits : List Char) : numberOf digits = Nat.ofDigitChars 10 digits 0 := by
  simp only [numberOf, Nat.ofDigitChars, Nat.mul_comm]

/-- A number is written with its width, in digits that denote it. -/
theorem padded_spec {width n : Nat} (hwidth : 0 < width) (hn : n < Nat.pow 10 width) :
    (padded width n).length = width ∧ (∀ c ∈ padded width n, c.isDigit = true) ∧
      numberOf (padded width n) = n := by
  have hlength : (Nat.toDigits 10 n).length ≤ width :=
    (Nat.length_toDigits_le_iff (by decide) hwidth).2 hn
  refine ⟨?_, ?_, ?_⟩
  · rw [padded, List.length_append, List.length_replicate]
    omega
  · intro c hc
    rcases List.mem_append.1 hc with hc | hc
    · rw [List.eq_of_mem_replicate hc]
      rfl
    · exact Nat.isDigit_of_mem_toDigits (by decide) (by decide) hc
  · rw [numberOf_eq, padded, Nat.ofDigitChars_append, Nat.ofDigitChars_replicate_zero,
      Nat.mul_zero, Nat.ofDigitChars_toDigits (by decide) (by decide)]

/-- The written number begins with a digit. -/
theorem exists_padded_eq_cons {width n : Nat} (hwidth : 0 < width) (hn : n < Nat.pow 10 width) :
    ∃ c cs, padded width n = c :: cs ∧ c.isDigit = true := by
  obtain ⟨hlength, hdigits, -⟩ := padded_spec hwidth hn
  cases hpadded : padded width n with
  | nil =>
    rw [hpadded] at hlength
    exact absurd hlength (Nat.ne_of_lt hwidth)
  | cons c cs => exact ⟨c, cs, rfl, hdigits c (hpadded ▸ List.mem_cons_self)⟩

/-- Nothing that comes next is a digit. -/
def NoDigit (rest : List Char) : Prop := ∀ c ∈ rest.head?, c.isDigit = false

theorem takeWhile_take_of_noDigit {rest : List Char} (n : Nat) (h : NoDigit rest) :
    (rest.take n).takeWhile Char.isDigit = [] := by
  cases n with
  | zero => rfl
  | succ n =>
    cases rest with
    | nil => rfl
    | cons c rest =>
      have hc : c.isDigit = false := h c rfl
      rw [List.take_succ_cons, List.takeWhile_cons_of_neg (by simp [hc])]

/-- A written number is read if no more digits may be read, or none come next. -/
theorem digits?_padded {width limit n : Nat} {rest : List Char} (hwidth : 0 < width)
    (hlimit : width ≤ limit) (hn : n < Nat.pow 10 width) (hrest : width = limit ∨ NoDigit rest) :
    digits? limit (padded width n ++ rest) = some (padded width n, rest) := by
  obtain ⟨hlength, hdigits, -⟩ := padded_spec hwidth hn
  obtain ⟨c, cs, hpadded, -⟩ := exists_padded_eq_cons hwidth hn
  have htaken : ((padded width n ++ rest).take limit).takeWhile Char.isDigit = padded width n := by
    rw [List.take_append, List.take_of_length_le (by omega),
      List.takeWhile_append_of_pos hdigits, hlength]
    rcases hrest with rfl | hrest
    · rw [Nat.sub_self, List.take_zero, List.takeWhile_nil, List.append_nil]
    · rw [takeWhile_take_of_noDigit _ hrest, List.append_nil]
  rw [digits?, htaken, if_neg (by simp [hpadded]), List.drop_left]

theorem trimStart_padded {width n : Nat} (rest : List Char) (hwidth : 0 < width)
    (hn : n < Nat.pow 10 width) :
    Text.trimStart (padded width n ++ rest) = padded width n ++ rest := by
  obtain ⟨c, cs, hpadded, hc⟩ := exists_padded_eq_cons hwidth hn
  rw [hpadded]
  exact Text.trimStart_cons (Text.isBlank_of_isDigit hc) (cs ++ rest)

theorem number?_padded {width n : Nat} (rest : List Char) (hwidth : 0 < width)
    (hn : n < Nat.pow 10 width) : number? width (padded width n ++ rest) = some (n, rest) := by
  rw [number?, trimStart_padded rest hwidth hn,
    digits?_padded hwidth (Nat.le_refl width) hn (.inl rfl)]
  exact congrArg (fun n => some (n, rest)) (padded_spec hwidth hn).2.2

/-- A year with four digits has no sign. -/
theorem year?_yearChars {year : Int} (rest : List Char) (hlow : 0 ≤ year) (hhigh : year ≤ 9999) :
    year? (yearChars year ++ rest) = some (year, rest) := by
  have hn : year.toNat < Nat.pow 10 4 := by
    have hlimit : Nat.pow 10 4 = 10000 := rfl
    omega
  have hread : digits? 4 (padded 4 year.toNat ++ rest) = some (padded 4 year.toNat, rest) :=
    digits?_padded (by decide) (Nat.le_refl 4) hn (.inl rfl)
  have hyear : (numberOf (padded 4 year.toNat) : Int) = year := by
    rw [(padded_spec (by decide) hn).2.2]
    omega
  obtain ⟨c, cs, hpadded, hc⟩ := exists_padded_eq_cons (by decide) hn
  rw [yearChars, if_pos ⟨hlow, hhigh⟩, year?, trimStart_padded rest (by decide) hn]
  rw [hpadded] at hread hyear ⊢
  rw [List.cons_append] at hread ⊢
  split
  · next h =>
    obtain ⟨rfl, -⟩ := List.cons.inj h
    cases hc
  · next h =>
    obtain ⟨rfl, -⟩ := List.cons.inj h
    cases hc
  · rw [hread]
    exact congrArg (fun year => some (year, rest)) hyear

theorem mark?_self {c : Char} (rest : List Char) (h : Text.isBlank c = false) :
    mark? c (c :: rest) = some rest := by
  rw [mark?, Text.trimStart_cons h]
  exact if_pos rfl

/-- A fraction is filled up with zeros to nine digits. -/
theorem fraction?_padded (width : Nat) {n nano : Nat} {rest : List Char} (hwidth : 0 < width)
    (hnine : width ≤ 9) (hn : n < Nat.pow 10 width) (hnano : n * Nat.pow 10 (9 - width) = nano)
    (hrest : NoDigit rest) :
    fraction? ('.' :: (padded width n ++ rest)) = some (nano, rest) := by
  obtain ⟨hlength, -, hnumber⟩ := padded_spec hwidth hn
  have hskip : rest.dropWhile Char.isDigit = rest := by
    cases rest with
    | nil => rfl
    | cons c rest =>
      have hc : c.isDigit = false := hrest c rfl
      rw [List.dropWhile_cons_of_neg (by simp [hc])]
  rw [fraction?, digits?_padded hwidth hnine hn (.inr hrest)]
  simp only [Option.bind_eq_bind, Option.bind_some, hnumber, hlength, hskip, hnano]
  rfl

theorem fraction?_fractionChars {nano : Nat} (h : nano < nanosPerSecond) :
    fraction? (fractionChars nano ++ ['Z']) = some (nano, ['Z']) := by
  have hrest : NoDigit ['Z'] := by simp [NoDigit]
  rw [nanosPerSecond] at h
  rw [fractionChars]
  split
  · next hzero =>
    subst hzero
    rfl
  · split
    · next hmillis =>
      have hn : nano / 1000000 < 1000 := by omega
      have hsame : nano / 1000000 * 1000000 = nano := by omega
      exact fraction?_padded 3 (by decide) (by decide) hn hsame hrest
    · split
      · next hmicros =>
        have hn : nano / 1000 < 1000000 := by omega
        have hsame : nano / 1000 * 1000 = nano := by omega
        exact fraction?_padded 6 (by decide) (by decide) hn hsame hrest
      · exact fraction?_padded 9 (by decide) (by decide) h (Nat.mul_one nano) hrest

/-! ## Whole timestamps -/

/-- The timestamp is one that there can be, in a year with four digits. -/
structure FourDigit (t : Timestamp) : Prop where
  valid : t.Valid
  year_nonneg : 0 ≤ (Date.ofDays (t.second / secondsPerDay)).year
  year_le : (Date.ofDays (t.second / secondsPerDay)).year ≤ 9999

/-- The text of a timestamp whose date is known. -/
theorem toList_write (t : Timestamp) {date : Date} {time leap nano : Nat}
    (hdate : Date.ofDays (t.second / secondsPerDay) = date) (htime : t.secondOfDay.toNat = time)
    (hleap : t.nano / nanosPerSecond = leap) (hnano : t.nano % nanosPerSecond = nano) :
    t.write.toList = yearChars date.year ++ '-' :: (padded 2 date.month ++ '-' ::
      (padded 2 date.day ++ 'T' :: (padded 2 (time / 3600) ++ ':' :: (padded 2 (time / 60 % 60) ++
        ':' :: (padded 2 (time % 60 + leap) ++ (fractionChars nano ++ ['Z'])))))) := by
  rw [write, hdate, htime, hleap, hnano]
  simp only [String.toList_ofList, List.append_assoc, List.cons_append]

/-- One step of reading. -/
theorem bind_of_eq {α β : Type} {x : Option α} {a : α} {f : α → Option β} (h : x = some a) :
    (x >>= f) = f a := by
  rw [h]
  rfl

theorem guard_of {p : Prop} [Decidable p] (h : p) : (guard p : Option Unit) = some () :=
  if_pos h

/-- Hours, minutes and seconds come to the second of the day, and a leap second to its
nanoseconds. -/
theorem inPlace_eq {t : Timestamp} (h : t.Valid) :
    t.second / secondsPerDay * secondsPerDay +
        ((t.secondOfDay.toNat / 3600 * 3600 + t.secondOfDay.toNat / 60 % 60 * 60 +
          min (t.secondOfDay.toNat % 60 + t.nano / nanosPerSecond) 59 : Nat) : Int) = t.second ∧
      t.nano % nanosPerSecond +
        (if t.secondOfDay.toNat % 60 + t.nano / nanosPerSecond = 60 then nanosPerSecond else 0) =
        t.nano := by
  have hnano : t.nano < 2000000000 := h.1
  have hleap : 1000000000 ≤ t.nano → t.second % 60 = 59 := h.2
  have hday : secondsPerDay = 86400 := rfl
  have hnanos : nanosPerSecond = 1000000000 := rfl
  obtain ⟨time, htime, hless, hsecond, hminute⟩ : ∃ time : Nat, t.secondOfDay.toNat = time ∧
      time < 86400 ∧ t.second / 86400 * 86400 + time = t.second ∧
        (time : Int) % 60 = t.second % 60 :=
    ⟨_, rfl, by rw [secondOfDay, hday]; omega⟩
  rw [htime, hday, hnanos]
  by_cases hin : 1000000000 ≤ t.nano
  · have hlast : time % 60 = 59 := by
      have hminuteEnd := hleap hin
      omega
    have hone : t.nano / 1000000000 = 1 := by omega
    rw [hlast, hone, if_pos rfl]
    omega
  · have hzero : t.nano / 1000000000 = 0 := by omega
    rw [hzero, if_neg (by omega)]
    omega

/-- A timestamp of a year with four digits is read back from its text. -/
theorem read?_write {t : Timestamp} (h : t.FourDigit) : read? t.write = some t := by
  obtain ⟨hvalidTime, hlow, hhigh⟩ := h
  obtain ⟨hsecond, hnano⟩ := inPlace_eq hvalidTime
  have hvalid := Date.isValid_ofDays (t.second / secondsPerDay)
  have hdays := Date.days_ofDays (t.second / secondsPerDay)
  have hday := hasDay_of_year hvalid hlow hhigh
  obtain ⟨-, hmonth, -, hdayHigh⟩ := Date.bounds_of_isValid hvalid
  have hlimit : Nat.pow 10 2 = 100 := rfl
  have htime : t.secondOfDay.toNat < 86400 := by
    rw [secondOfDay, secondsPerDay]
    omega
  have hleap : t.secondOfDay.toNat % 60 + t.nano / nanosPerSecond ≤ 60 := by
    have hless := hvalidTime.1
    rw [nanosPerSecond] at hless ⊢
    omega
  rw [read?, toList_write t rfl rfl rfl rfl]
  generalize Date.ofDays (t.second / secondsPerDay) = date at *
  refine (bind_of_eq (year?_yearChars _ hlow hhigh)).trans ?_
  refine (bind_of_eq (mark?_self _ rfl)).trans ?_
  refine (bind_of_eq (number?_padded _ (by decide) (by omega))).trans ?_
  refine (bind_of_eq (mark?_self _ rfl)).trans ?_
  refine (bind_of_eq (number?_padded _ (by decide) (by omega))).trans ?_
  refine (bind_of_eq rfl).trans ?_
  refine (bind_of_eq (number?_padded _ (by decide) (by omega))).trans ?_
  refine (bind_of_eq (mark?_self _ rfl)).trans ?_
  refine (bind_of_eq (number?_padded _ (by decide) (by omega))).trans ?_
  refine (bind_of_eq (mark?_self _ rfl)).trans ?_
  refine (bind_of_eq (number?_padded _ (by decide) (by omega))).trans ?_
  refine (bind_of_eq (fraction?_fractionChars (Nat.mod_lt _ (by decide)))).trans ?_
  refine (bind_of_eq (rfl : offset? ['Z'] = some (0, []))).trans ?_
  -- what was read is a date and a time that there are
  dsimp only
  rw [hdays, hsecond, Int.sub_zero, hnano]
  refine (bind_of_eq (guard_of rfl)).trans ?_
  refine (bind_of_eq (guard_of ?_)).trans ?_
  · rw [hdays] at hday
    have hoffset : (0 : Int).natAbs < secondsPerDay := by decide
    simp only [hvalid, hday, Bool.and_eq_true, decide_eq_true_eq, true_and]
    omega
  · rw [hdays] at hday
    exact bind_of_eq (guard_of hday)

end Timestamp

end AgentLoop
